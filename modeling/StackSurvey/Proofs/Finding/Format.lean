import StackSurvey.Finding.Basic
import StackSurvey.Proofs.Feature
import StackSurvey.Proofs.Form
import StackSurvey.Proofs.Json.Keyed
import StackSurvey.Proofs.Json.Layout
import StackSurvey.Proofs.Text.Blank

/-! # The format of documents

    A document is accepted just if its bytes are a text that is an object (`Holds`) whose members
    describe a feature (`Describes`).  The type is erased before the other members are taken in an
    order that this changes, so each step is said in terms of what is looked up under a name: the
    type and the name are checked (`withoutType_eq_ok`, `checkName_eq_ok`), the members are read
    (`Feature.ofMembers_eq_ok`), and the whole is `featureOfMembers_eq_ok`.

    Main result: `accepts_the_format`. -/

namespace StackSurvey

open Form

/-! ## Section 1: Features in objects -/

/-- A member of a value with distinct names has distinct names. -/
theorem Json.keyed_of_get? {members : Dictionary Json} (h : Keyed (.object members))
    {name : String} {v : Json} (hv : Dictionary.get? name members = some v) : v.Keyed :=
  (keyed_object.1 h).2 (name, v) (Dictionary.mem_of_get? hv)

theorem Json.keyed_swapErase {members : Dictionary Json} (h : Keyed (.object members))
    (name : String) : Keyed (.object (Dictionary.swapErase name members)) := by
  obtain ⟨hnames, hmembers⟩ := keyed_object.1 h
  refine .object (Dictionary.nodup_names_swapErase hnames) fun m hm => hmembers m ?_
  rw [(Dictionary.swapErase_perm hnames).mem_iff] at hm
  exact List.mem_of_mem_filter hm

namespace Feature

theorem detailForm_eq_ok {v : Json} (hv : v.Keyed) {d : Json.Object} :
    detailForm.fromJson v = .ok d ↔ v = .object d.members := by
  show object.fromJson v >>= _ = _ ↔ _
  rw [Except.bind_eq_ok]
  constructor
  · rintro ⟨members, hmembers, hd⟩
    obtain rfl := object_eq_ok.1 hmembers
    obtain rfl := Except.ok.inj hd
    rw [Json.Object.members_ofMembers hv]
  · rintro rfl
    exact ⟨d.members, object_eq_ok.2 rfl, congrArg Except.ok d.ofMembers_members⟩

/-- What engines have to say is the member as it is. -/
theorem given_detail {member : Option Json} (hmember : ∀ v, member = some v → v.Keyed)
    {d : Json.Object} : Given detailForm.fromJson .empty member d ↔ Members member d.members := by
  cases member with
  | none =>
    constructor
    · rintro rfl
      exact .inl ⟨rfl, rfl⟩
    · rintro (⟨-, hnone⟩ | hsome)
      · exact Json.Object.ext hnone
      · cases hsome
  | some v =>
    show detailForm.fromJson v = .ok d ↔ _
    rw [detailForm_eq_ok (hmember v rfl)]
    simp [Members]

/-- The members of an object give a feature: the name must be there and a text, the others may be
    absent, and each has the form of its field. -/
structure ReadFrom (member? : String → Option Json) (f : Feature) : Prop where
  name : member? "name" = some (.text f.name)
  version : OptionalText (member? "version") f.version
  description : OptionalText (member? "description") f.description
  cpe : OptionalText (member? "cpe") f.cpe
  categories : Texts (member? "categories") f.categories
  engines : Texts (member? "engines") f.engines
  detail : Members (member? "meta") f.detail.members

/-- The names of the members that a feature is read from. -/
def memberNames : List String :=
  ["name", "version", "description", "cpe", "categories", "engines", "meta"]

/-- No other members matter. -/
theorem ReadFrom.of_agree {member? other? : String → Option Json} {f : Feature}
    (hf : ReadFrom member? f) (h : ∀ name ∈ memberNames, other? name = member? name) :
    ReadFrom other? f := by
  simp only [memberNames, List.forall_mem_cons] at h
  obtain ⟨hname, hversion, hdescription, hcpe, hcategories, hengines, hdetail, -⟩ := h
  exact ⟨hname ▸ hf.name, hversion ▸ hf.version, hdescription ▸ hf.description, hcpe ▸ hf.cpe,
    hcategories ▸ hf.categories, hengines ▸ hf.engines, hdetail ▸ hf.detail⟩

/-- Each field of a feature stores its member in a component of its own. -/
theorem owns_fields :
    Owns fields "name" text.fromJson name ∧
    Owns fields "version" (optional text).fromJson version ∧
    Owns fields "description" (optional text).fromJson description ∧
    Owns fields "cpe" (optional text).fromJson cpe ∧
    Owns fields "categories" (list text).fromJson categories ∧
    Owns fields "engines" (list text).fromJson engines ∧
    Owns fields "meta" detailForm.fromJson detail := by
  refine ⟨?_, ?_, ?_, ?_, ?_, ?_, ?_⟩ <;> constructor <;> simp [fields, field_eq_ok]

/-- The members of an object that are taken one after the other give the feature they are read
    as. -/
theorem readFrom_of_foldlM {members : Dictionary Json} (hkeyed : Json.Keyed (.object members))
    (hname : Dictionary.get? "name" members ≠ none) {f : Feature}
    (h : members.foldlM (storeMember fields) { name := "" } = .ok f) :
    ReadFrom (Dictionary.get? · members) f := by
  obtain ⟨howns, hversion, hdescription, hcpe, hcategories, hengines, hdetail⟩ := owns_fields
  have hnames := (Json.keyed_object.1 hkeyed).1
  refine ⟨?_, given_optional_text.1 (hversion.given hnames h),
    given_optional_text.1 (hdescription.given hnames h),
    given_optional_text.1 (hcpe.given hnames h), given_texts.1 (hcategories.given hnames h),
    given_texts.1 (hengines.given hnames h),
    (given_detail fun _ hv => Json.keyed_of_get? hkeyed hv).1 (hdetail.given hnames h)⟩
  -- The name is the one field without a default, so its member has to be there.
  have hgiven := howns.given hnames h
  rcases hmember : Dictionary.get? "name" members with _ | v
  · exact absurd hmember hname
  · rw [hmember] at hgiven
    show some v = _
    rw [text_eq_ok.1 hgiven]

theorem ReadFrom.unique {member? : String → Option Json} {f g : Feature} (hf : ReadFrom member? f)
    (hg : ReadFrom member? g) : f = g := by
  -- A member, or its absence, leaves no choice for the field that is read from it.
  have hname : f.name = g.name := Json.text.inj (Option.some.inj (hf.name.symm.trans hg.name))
  have hversion : f.version = g.version :=
    (given_optional_text.2 hf.version).unique (given_optional_text.2 hg.version)
  have hdescription : f.description = g.description :=
    (given_optional_text.2 hf.description).unique (given_optional_text.2 hg.description)
  have hcpe : f.cpe = g.cpe :=
    (given_optional_text.2 hf.cpe).unique (given_optional_text.2 hg.cpe)
  have hcategories : f.categories = g.categories :=
    (given_texts.2 hf.categories).unique (given_texts.2 hg.categories)
  have hengines : f.engines = g.engines :=
    (given_texts.2 hf.engines).unique (given_texts.2 hg.engines)
  have hdetail : f.detail = g.detail :=
    Json.Object.ext ((given_members.2 hf.detail).unique (given_members.2 hg.detail))
  cases f
  cases g
  simp only [mk.injEq]
  exact ⟨hname, hversion, hdescription, hcpe, hcategories, hengines, hdetail⟩

/-- Members that give a feature are of the forms of their fields. -/
theorem ReadFrom.readable {members : Dictionary Json} (hkeyed : Json.Keyed (.object members))
    {f : Feature} (h : ReadFrom (Dictionary.get? · members) f) :
    ∀ m ∈ members, ∀ field ∈ fields, field.name = m.1 → ∀ x,
      ∃ y, field.fromJson x m.2 = .ok y := by
  intro m hm
  have hnames := (Json.keyed_object.1 hkeyed).1
  have hdetail := (given_detail fun _ hv => Json.keyed_of_get? hkeyed hv).2 h.detail
  have hname : Given text.fromJson "" (Dictionary.get? "name" members) f.name := by
    rw [show Dictionary.get? "name" members = _ from h.name]
    exact text_eq_ok.2 rfl
  simp only [fields, List.forall_mem_cons, mandatory_name, mandatory_fromJson]
  -- A field whose value is known can be read from its member, whatever was gathered before.
  exact ⟨exists_of_given hnames hname hm,
    exists_of_given hnames (given_optional_text.2 h.version) hm,
    exists_of_given hnames (given_optional_text.2 h.description) hm,
    exists_of_given hnames (given_optional_text.2 h.cpe) hm,
    exists_of_given hnames (given_texts.2 h.categories) hm,
    exists_of_given hnames (given_texts.2 h.engines) hm,
    exists_of_given hnames hdetail hm,
    fun _ hnone => absurd hnone List.not_mem_nil⟩

/-- **A feature is made of an object just if its members give it.** -/
theorem ofMembers_eq_ok {members : Dictionary Json} (hkeyed : Json.Keyed (.object members))
    {f : Feature} :
    Form.ofMembers fields { name := "" } members = .ok f ↔
      ReadFrom (Dictionary.get? · members) f := by
  rw [Form.ofMembers_eq_ok]
  constructor
  · rintro ⟨hfold, hrequired⟩
    have hname : Dictionary.get? "name" members ≠ none :=
      hrequired _ List.mem_cons_self rfl
    exact readFrom_of_foldlM hkeyed hname hfold
  · -- Reading cannot fail as every member is as it should be, and what it gives is the only feature
    -- there is.
    intro h
    have hname : Dictionary.get? "name" members ≠ none := by
      rw [show Dictionary.get? "name" members = _ from h.name]
      exact Option.some_ne_none _
    obtain ⟨g, hfold⟩ := exists_of_foldlM (h.readable hkeyed) { name := "" }
    obtain rfl := h.unique (readFrom_of_foldlM hkeyed hname hfold)
    refine ⟨hfold, fun field hfield hrequired => ?_⟩
    rw [name_of_required field hfield hrequired]
    exact hname

end Feature

/-! ## Section 2: Documents -/

namespace Finding

/-- The members of a document describe a feature: its type is the right one, its name is more than
    white space, and it is what the members give, except that no engine has reported it. -/
structure Describes (member? : String → Option Json) (f : Feature) : Prop where
  kind : ∃ kind, member? "type" = some (.text kind) ∧
    kind.toList.map Char.toLower = "feature".toList
  named : ∃ c ∈ f.name.toList, Text.isBlank c = false
  readFrom : ∃ engines, Feature.ReadFrom member? { f with engines }
  engines : f.engines = []

theorem withoutType_eq_ok {members rest : Dictionary Json} :
    withoutType members = .ok rest ↔
      (∃ kind, Dictionary.get? "type" members = some (.text kind) ∧
        kind.toList.map Char.toLower = "feature".toList) ∧
      rest = Dictionary.swapErase "type" members := by
  unfold withoutType
  rcases Dictionary.get? "type" members with _ | v
  · simp
  -- Only a text can say what kind of document this is.
  cases v with
  | text kind =>
    have hword : sameWord kind "feature" = true ↔
        kind.toList.map Char.toLower = "feature".toList := by
      rw [sameWord, decide_eq_true_eq]
      exact Iff.rfl
    by_cases hkind : sameWord kind "feature" = true
    · simp [hkind, hword.1 hkind, eq_comm]
    · simp only [if_neg hkind, reduceCtorEq, false_iff, not_and]
      rintro ⟨other, hother, hsame⟩
      obtain rfl := Json.text.inj (Option.some.inj hother)
      exact absurd (hword.2 hsame) hkind
  | _ => simp

theorem checkName_eq_ok {members : Dictionary Json} :
    checkName members = .ok () ↔
      ∃ name, Dictionary.get? "name" members = some (.text name) ∧
        ∃ c ∈ name.toList, Text.isBlank c = false := by
  unfold checkName
  rcases Dictionary.get? "name" members with _ | v
  · simp
  -- A name that is no text is faulty; a text is checked for blanks.
  cases v with
  | text name =>
    have hblank : Text.isBlankText name = false ↔
        ∃ c ∈ name.toList, Text.isBlank c = false := by
      rw [Text.isBlankText, List.all_eq_false]
      simp
    cases htext : Text.isBlankText name with
    | false => simp [htext, hblank.1 htext]
    | true => simp [htext, ← hblank]
  | _ => simp

/-- Erasing the type leaves the members of a feature as they are. -/
theorem get?_without_type {members : Dictionary Json} (hnames : (Dictionary.names members).Nodup) :
    ∀ name ∈ Feature.memberNames,
      Dictionary.get? name (Dictionary.swapErase "type" members) =
        Dictionary.get? name members := by
  intro name hname
  refine Dictionary.get?_swapErase_ne hnames ?_
  rintro rfl
  revert hname
  decide

/-- **The members of a document are accepted just if they describe a feature.** -/
theorem featureOfMembers_eq_ok {members : Dictionary Json} (hkeyed : Json.Keyed (.object members))
    {f : Feature} :
    featureOfMembers members = .ok f ↔ Describes (Dictionary.get? · members) f := by
  have hnames := (Json.keyed_object.1 hkeyed).1
  have herased := Json.keyed_swapErase hkeyed "type"
  unfold featureOfMembers
  rw [Except.bind_eq_ok]
  constructor
  · rintro ⟨rest, hrest, h⟩
    obtain ⟨hkind, rfl⟩ := withoutType_eq_ok.1 hrest
    obtain ⟨⟨⟩, hname, h⟩ := Except.bind_eq_ok.1 h
    obtain ⟨name, hmember, hnamed⟩ := checkName_eq_ok.1 hname
    split at h
    · next g hg =>
      cases h
      have hread := (Feature.ofMembers_eq_ok herased).1 hg
      obtain rfl : name = g.name :=
        Json.text.inj (Option.some.inj (hmember.symm.trans hread.name))
      exact ⟨hkind, hnamed,
        ⟨g.engines, hread.of_agree fun k hk => (get?_without_type hnames k hk).symm⟩, rfl⟩
    · cases h
  · -- The other way round, each of the three steps is known to succeed.
    rintro ⟨hkind, hnamed, ⟨engines, hread⟩, hengines⟩
    have hread := hread.of_agree (get?_without_type hnames)
    have hname := checkName_eq_ok.2 ⟨f.name, hread.name, hnamed⟩
    refine ⟨_, withoutType_eq_ok.2 ⟨hkind, rfl⟩, ?_⟩
    rw [Except.bind_eq_ok]
    refine ⟨(), hname, ?_⟩
    rw [(Feature.ofMembers_eq_ok herased).2 hread]
    cases f
    cases hengines
    rfl

/-! ## Section 3: Findings -/

/-- The bytes are a text that is an object with these members, white space around it aside. -/
def Holds (raw : Bytes) (members : Dictionary Json) : Prop :=
  ∃ text, raw = Utf8.encode text ∧ Json.parse (Text.trim text) = .ok (.object members)

theorem holds_encode {text : String} {members : Dictionary Json} :
    Holds (Utf8.encode text) members ↔ Json.parse (Text.trim text) = .ok (.object members) := by
  constructor
  · rintro ⟨other, hsame, hparse⟩
    have htext : Utf8.decode (Utf8.encode text) = .ok other := by
      rw [hsame, Utf8.decode_encode]
    rw [Utf8.decode_encode] at htext
    rw [Except.ok.inj htext]
    exact hparse
  · exact fun hparse => ⟨text, rfl, hparse⟩

theorem Holds.keyed {raw : Bytes} {members : Dictionary Json} (h : Holds raw members) :
    Json.Keyed (.object members) := by
  obtain ⟨text, -, hparse⟩ := h
  exact Json.keyed_of_parse hparse

/-- **A document is accepted just if it holds members that describe a feature.** -/
theorem featureOf_eq_ok {raw : Bytes} {f : Feature} :
    featureOf raw = .ok f ↔
      ∃ members, Holds raw members ∧ Describes (Dictionary.get? · members) f := by
  unfold featureOf
  rcases hdecode : Utf8.decode raw with fault | text
  · -- A document that is no text holds nothing.
    refine ⟨fun h => (nomatch h), ?_⟩
    rintro ⟨members, ⟨text, rfl, -⟩, -⟩
    rw [Utf8.decode_encode] at hdecode
    cases hdecode
  obtain rfl := Utf8.decode_eq_ok_iff.1 hdecode
  simp only [holds_encode]
  -- What surrounds the object is trimmed off before it is read.
  rcases hparse : Json.parse (Text.trim text) with fault | v
  · exact ⟨fun h => (nomatch h), fun ⟨_, h, _⟩ => nomatch h⟩
  cases v with
  | object members =>
    refine (featureOfMembers_eq_ok (holds_encode.2 hparse).keyed).trans ?_
    constructor
    · exact fun h => ⟨members, rfl, h⟩
    · rintro ⟨_, ⟨⟩, h⟩
      exact h
  | _ => exact ⟨fun h => (nomatch h), fun ⟨_, h, _⟩ => nomatch h⟩

theorem Holds.unique {raw : Bytes} {members other : Dictionary Json} (h : Holds raw members)
    (hother : Holds raw other) : members = other := by
  obtain ⟨text, rfl, hparse⟩ := h
  rw [holds_encode, hparse] at hother
  cases hother
  rfl

/-- What holds an object is not blank. -/
theorem Holds.ofBytes? {raw : Bytes} {members : Dictionary Json} (h : Holds raw members) :
    ofBytes? raw = some ⟨raw, featureOf raw⟩ := by
  obtain ⟨text, rfl, hparse⟩ := h
  have hplain : Text.isPlainText text = false := by
    rw [Bool.eq_false_iff]
    intro hplain
    rw [Text.trim_of_isBlankText (Text.isBlankText_of_isPlainText hplain)] at hparse
    cases hparse
  rw [Finding.ofBytes?, Text.all_isBlankByte_encode, hplain]
  rfl

theorem feature?_eq_some {raw : Bytes} {f : Feature} :
    feature? ⟨raw, featureOf raw⟩ = some f ↔ featureOf raw = .ok f := by
  unfold feature?
  rcases featureOf raw with r | g <;> simp [Except.toOption]

theorem Describes.of_agree {member? other? : String → Option Json} {f : Feature}
    (hf : Describes member? f)
    (h : ∀ name ∈ "type" :: Feature.memberNames, other? name = member? name) :
    Describes other? f := by
  rw [List.forall_mem_cons] at h
  obtain ⟨hkind, hnamed, ⟨engines, hread⟩, hengines⟩ := hf
  exact ⟨h.1 ▸ hkind, hnamed, ⟨engines, hread.of_agree h.2⟩, hengines⟩

/-- **Exactly the format is accepted.**  A document with a byte that is not blank gives a finding:
    the feature that its members describe, if it holds such members, and a message otherwise.
    The names of the members are distinct, each with the last value that is written for it.
    Another document gives the same feature, or none as well, if it holds the same members of the
    format, whatever their order is and whatever else it holds. -/
theorem accepts_the_format {raw : Bytes} (hraw : ∃ b ∈ raw, Text.isBlankByte b = false) :
    ∃ x, ofBytes? raw = some x ∧ x.raw = raw ∧
      (∀ f, x.feature? = some f ↔
        ∃ members, Holds raw members ∧ Describes (Dictionary.get? · members) f) ∧
      (x.feature? = none ↔ ∃ message, x.message? = some message) ∧
      (∀ members, Holds raw members → (Dictionary.names members).Nodup ∧
        ∃ text written, raw = Utf8.encode text ∧
          (Json.Reader.writtenObject Json.nestingLimit).run (Text.trim text) = .ok written ∧
          ∀ name, Dictionary.get? name members = Dictionary.get? name written.reverse) ∧
      ∀ other members members', Holds raw members → Holds other members' →
        (∀ name ∈ "type" :: Feature.memberNames,
          Dictionary.get? name members' = Dictionary.get? name members) →
        ∃ y, ofBytes? other = some y ∧ y.feature? = x.feature? := by
  have hnotblank : raw.all Text.isBlankByte = false := by
    rw [List.all_eq_false]
    obtain ⟨b, hb, hblank⟩ := hraw
    exact ⟨b, hb, Bool.eq_false_iff.1 hblank⟩
  have hfinding : ofBytes? raw = some ⟨raw, featureOf raw⟩ := by
    rw [ofBytes?, hnotblank]
    rfl
  refine ⟨⟨raw, featureOf raw⟩, hfinding, rfl, ?_, ?_, ?_, ?_⟩
  · exact fun f => feature?_eq_some.trans featureOf_eq_ok
  · unfold feature? message?
    rcases featureOf raw with r | f <;> simp [Except.toOption]
  · rintro members hmembers
    obtain ⟨text, rfl, hparse⟩ := id hmembers
    obtain ⟨written, hwritten, hlast⟩ := Json.written_of_parse hparse
    exact ⟨(Json.keyed_object.1 hmembers.keyed).1, text, written, rfl, hwritten, hlast⟩
  · intro other members members' hmembers hother hagree
    refine ⟨_, hother.ofBytes?, ?_⟩
    ext f
    rw [feature?_eq_some, feature?_eq_some, featureOf_eq_ok, featureOf_eq_ok]
    constructor
    · rintro ⟨found, hfound, hdescribes⟩
      obtain rfl := hother.unique hfound
      exact ⟨members, hmembers, hdescribes.of_agree fun name hname => (hagree name hname).symm⟩
    · rintro ⟨found, hfound, hdescribes⟩
      obtain rfl := hmembers.unique hfound
      exact ⟨members', hother, hdescribes.of_agree hagree⟩

/-- A document that gives `null` for a version and names an engine. -/
theorem accepts_the_format_of_ruby :
    let members : Dictionary Json := [("name", .text " ruby"), ("type", .text "FEATURE"),
      ("version", .null), ("engines", .list [.text "x"])]
    let raw := Utf8.encode (Json.object members).compact
    (∃ b ∈ raw, Text.isBlankByte b = false) ∧
      ∃ x, ofBytes? raw = some x ∧ x.feature? = some { name := " ruby" } := by
  intro members raw
  have hraw : ∃ b ∈ raw, Text.isBlankByte b = false := by
    have hbrace : 0x7B ∈ String.utf8EncodeChar '\x7b' := by decide
    refine ⟨0x7B, ?_, by decide⟩
    rw [show raw = _ from Utf8.encode_eq _, Json.compact, String.toList_ofList]
    exact List.mem_flatMap.2 ⟨'\x7b', List.mem_cons_self, hbrace⟩
  have hkeyed : Json.Keyed (.object members) := by
    simp [members, Json.keyed_object, Json.keyed_list, Dictionary.names, Json.Keyed.text,
      Json.Keyed.null]
  have htrim : Text.trim (Json.object members).compact = (Json.object members).compact := by decide
  have hholds : Holds raw members := by
    rw [holds_encode, htrim]
    exact Json.parse_compact hkeyed (by decide) (by decide)
  obtain ⟨x, hx, -, haccepts, -⟩ := accepts_the_format hraw
  refine ⟨hraw, x, hx, (haccepts _).2 ⟨members, hholds, ?_⟩⟩
  exact ⟨⟨"FEATURE", rfl, by decide⟩, ⟨'r', by decide, by decide⟩,
    ⟨["x"], rfl, .inr rfl, .inl rfl, .inl rfl, .inl ⟨rfl, rfl⟩, .inr rfl, .inl ⟨rfl, rfl⟩⟩, rfl⟩

end Finding
end StackSurvey
