import StackSurvey.Form
import StackSurvey.Proofs.Json.Layout

/-! # Forms read what was written

    What a form takes of a JSON text, for the forms of which features are made: texts, optional
    texts, lists, objects of any kind, and records.  A record is taken if each of its members has
    a field of its own (`Gathers`, `takes_record`). -/

namespace StackSurvey.Json

open Reader

variable {α σ : Type}

/-! ## Section 1: Texts, lists and objects -/

theorem takes_text (s : String) : Takes Reader.text (.text s) s := by
  intro layout level gap rest hgap _
  refine (reads_startOfValue hgap rfl).bind ?_
  rw [if_pos rfl]
  exact reads_string s rest

/-- A text that is there, where it may be missing. -/
theorem takes_optional_text (s : String) : Takes (optional Reader.text) (.text s) (some s) := by
  intro layout level gap rest hgap hrest
  exact (reads_peekToken_cons hgap rfl).bind
    ((takes_text s layout level [] rest isGap_nil hrest).bind (.pure (some s) rest))

theorem takes_sequence (item : Nat → Reader α) {items : List Json} {xs : List α} {depth : Nat}
    (h : List.Forall₂ (Takes (item depth)) items xs)
    (hdouble : ∀ v ∈ items, v.hasDouble = false) :
    Takes (sequence item (depth + 1)) (.list items) xs := by
  intro layout level gap rest hgap _
  have hread := reads_list h hdouble layout level rest
  obtain ⟨more, hmore⟩ := layout.write_list level items
  rw [hmore] at hread ⊢
  refine (reads_startOfValue hgap rfl).bind ?_
  rw [if_pos rfl]
  exact hread

/-- A list of texts. -/
theorem takes_texts (xs : List String) {depth : Nat} (hnesting : (ofTexts xs).nesting ≤ depth) :
    Takes ((Form.list .text).fromText depth) (ofTexts xs) xs := by
  match depth with
  | 0 => exact absurd hnesting (by simp [ofTexts, nesting])
  | depth + 1 =>
    have hitems : List.Forall₂ (Takes Reader.text) (xs.map .text) xs :=
      List.forall₂_map_left_iff.2 (List.forall₂_same.2 fun s _ => takes_text s)
    exact takes_sequence Form.text.fromText hitems (hasDouble_list.1 (hasDouble_ofTexts xs))

/-- An object with members of any kind. -/
theorem takes_object {members : List (String × Json)} (h : Keyed (.object members)) {depth : Nat}
    (hnesting : (Json.object members).nesting ≤ depth)
    (hdouble : (Json.object members).hasDouble = false) :
    Takes (Form.object.fromText depth) (.object members) members := by
  match depth with
  | 0 => exact absurd hnesting (by simp [nesting])
  | depth + 1 =>
    rw [keyed_object] at h
    rw [nesting_object_le] at hnesting
    rw [hasDouble_object] at hdouble
    -- The bounds on nesting and doubles are handed down to the members.
    have hmembers : ∀ m ∈ members, Takes (value depth) m.2 m.2 :=
      fun m hm => takes_value (h.2 m hm) (hnesting m hm) (hdouble m hm)
    intro layout level gap rest hgap _
    have hread := reads_object (enters_anyMember hmembers [] h.1) layout level rest
    obtain ⟨more, hmore⟩ := layout.write_object level members
    rw [hmore] at hread ⊢
    refine (reads_startOfValue hgap rfl).bind ?_
    rw [if_pos rfl]
    exact hread

/-! ## Section 2: Records -/

/-- Each of the members has a field, and storing one value after the other leads from one record
    to another. -/
inductive Gathers (fields : List (Reader.Field σ)) (depth : Nat) :
    σ → List (String × Json) → σ → Prop
  | done (x : σ) : Gathers fields depth x [] x
  | store {x₁ x₂ x₃ : σ} {field : Reader.Field σ} {k : String} {v : Json}
      {ms : List (String × Json)} (hfield : fields.find? (fun f => f.name = k) = some field)
      (hread : Takes (field.read depth x₁) v x₂) (hrest : Gathers fields depth x₂ ms x₃) :
      Gathers fields depth x₁ ((k, v) :: ms) x₃

theorem Gathers.append {fields : List (Reader.Field σ)} {depth : Nat} {x₁ x₂ x₃ : σ}
    {ms ns : List (String × Json)} (h : Gathers fields depth x₁ ms x₂)
    (hns : Gathers fields depth x₂ ns x₃) : Gathers fields depth x₁ (ms ++ ns) x₃ := by
  induction h with
  | done => exact hns
  | store hfield hread _ ih => exact .store hfield hread (ih hns)

/-- Members with distinct names are entered, none of them being taken for a repetition. -/
theorem Gathers.enters {fields : List (Reader.Field σ)} {depth : Nat} {x y : σ}
    {ms : List (String × Json)} (h : Gathers fields depth x ms y) {seen : List String}
    (hnames : (Dictionary.names ms).Nodup) (hseen : ∀ k ∈ Dictionary.names ms, k ∉ seen) :
    Enters (recordMember fields depth) (x, seen) ms (y, (Dictionary.names ms).reverse ++ seen) := by
  -- By induction on what is gathered.  The names seen so far are carried along, so that each member
  -- is known to be a new one.
  induction h generalizing seen with
  | done x => exact .done (x, seen)
  | @store x₁ x₂ x₃ field k v ms hfield hread _ ih =>
    obtain ⟨hk, hnodup⟩ := List.nodup_cons.1 hnames
    have hnew : seen.contains k = false := by
      simpa using hseen k List.mem_cons_self
    have hmember : TakesMember (recordMember fields depth (x₁, seen) k) v (x₂, k :: seen) := by
      simp only [recordMember, hfield, hnew, Bool.false_eq_true, if_false]
      exact (hread.andThen fun x => (x, k :: seen)).afterColon
    have hlater : ∀ j ∈ Dictionary.names ms, j ∉ k :: seen := by
      intro j hj
      rw [List.mem_cons, not_or]
      exact ⟨fun h => hk (h ▸ hj), hseen j (List.mem_cons_of_mem k hj)⟩
    have hrest := ih hnodup hlater
    rw [List.append_cons, ← List.reverse_cons] at hrest
    exact .enter hmember hrest

/-- **A record is taken if each of its members has a field of its own** and no field that it must
    have is missing. -/
theorem takes_record {name : String} {fields : List (Reader.Field σ)} {blank x : σ} {depth : Nat}
    {ms : List (String × Json)} (h : Gathers fields depth blank ms x)
    (hnames : (Dictionary.names ms).Nodup)
    (hrequired : ∀ f ∈ fields, f.required = true → f.name ∈ Dictionary.names ms) :
    Takes (record name fields blank (depth + 1)) (.object ms) x := by
  intro layout level gap rest hgap _
  have henters : Enters (recordMember fields depth) (blank, []) ms
      (x, (Dictionary.names ms).reverse) := by
    rw [← List.append_nil (Dictionary.names ms).reverse]
    exact h.enters hnames fun _ _ => List.not_mem_nil
  have hread := reads_object henters layout level rest
  -- No required field is reported missing, since each of them is among the members.
  have hcomplete : fields.find? (fun f => f.required &&
      !(Dictionary.names ms).reverse.contains f.name) = none := by
    rw [List.find?_eq_none]
    intro f hf
    by_cases hmust : f.required = true
    · simp [hrequired f hf hmust]
    · simp [hmust]
  obtain ⟨more, hmore⟩ := layout.write_object level ms
  rw [hmore] at hread ⊢
  refine (reads_startOfValue hgap rfl).bind (hread.bind ?_)
  simp only [hcomplete]
  exact .pure x rest

end StackSurvey.Json
