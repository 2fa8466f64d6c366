import Mathlib.Data.List.Induction
import StackSurvey.Proofs.Dictionary
import StackSurvey.Proofs.Json.Reading
import StackSurvey.Json.Object

/-! # What is read has distinct names

    A text may repeat a name in an object; the value that is read does not (`keyed_of_parse`), and
    has the last of the values written for a name (`object_eq_written`, `get?_ofWritten`).

    `Keeps r P` says that whatever the reader `r` gives has the property `P`. -/

namespace StackSurvey.Json
namespace Reader

variable {α β σ τ : Type}

/-! ## Section 1: What a reader gives -/

/-- Whatever the reader gives has the property. -/
def Keeps (r : Reader α) (P : α → Prop) : Prop :=
  ∀ (cur : Cursor) (x : α) (cur' : Cursor), r cur = .ok (x, cur') → P x

theorem Keeps.any (r : Reader α) : Keeps r fun _ => True := fun _ _ _ _ => trivial

theorem Keeps.pure {P : α → Prop} {x : α} (h : P x) : Keeps (Pure.pure x) P := by
  rintro cur y cur' ⟨⟩
  exact h

theorem Keeps.failAhead (p : Problem) (P : α → Prop) : Keeps (failAhead p) P :=
  fun _ _ _ h => nomatch h

theorem Keeps.failHere (p : Problem) (P : α → Prop) : Keeps (failHere p) P :=
  fun _ _ _ h => nomatch h

theorem Keeps.bind {r : Reader α} {f : α → Reader β} {P : α → Prop} {Q : β → Prop}
    (hr : Keeps r P) (hf : ∀ x, P x → Keeps (f x) Q) : Keeps (r >>= f) Q := by
  intro cur y cur' h
  obtain ⟨x, middle, hfirst, hsecond⟩ := bind_eq_ok h
  exact hf x (hr cur x middle hfirst) middle y cur' hsecond

/-- What comes first does not matter. -/
theorem Keeps.after {r : Reader α} {f : α → Reader β} {Q : β → Prop}
    (hf : ∀ x, Keeps (f x) Q) : Keeps (r >>= f) Q :=
  (Keeps.any r).bind fun x _ => hf x

/-! ## Section 2: Brackets -/

theorem keeps_listRest {item : Reader α} {P : α → Prop} (hitem : Keeps item P) (fuel : Nat)
    (first : Bool) : Keeps (listRest item fuel first) fun xs => ∀ x ∈ xs, P x := by
  induction fuel generalizing first with
  | zero => exact .failHere _ _
  | succ fuel ih =>
    have hitems : Keeps (do let x ← item; let xs ← listRest item fuel false; return x :: xs)
        fun xs => ∀ x ∈ xs, P x :=
      hitem.bind fun x hx => (ih false).bind fun xs hxs =>
        .pure (List.forall_mem_cons.2 ⟨hx, hxs⟩)
    refine .after fun c => ?_
    split
    · exact .failAhead _ _
    · exact .after fun _ => .pure fun _ hx => absurd hx List.not_mem_nil
    -- Whatever separates the items, they are read the same way.
    · split_ifs
      · refine .after fun _ => .after fun d => ?_
        split
        · exact .after fun _ => hitems
        · exact .after fun _ => hitems
        · exact hitems
      · exact .after fun _ => hitems
      · exact hitems

theorem keeps_objectRest {member : σ → String → Reader σ} {P : σ → Prop}
    (hmember : ∀ s k, P s → Keeps (member s k) P) (fuel : Nat) (first : Bool) {s : σ} (hs : P s) :
    Keeps (objectRest member fuel first s) P := by
  induction fuel generalizing first s with
  | zero => exact .failHere _ _
  | succ fuel ih =>
    -- Whatever stands before a key, the key is followed by a member and the rest.
    have hmembers : Keeps (do
        let k ← string
        let s ← member s k
        objectRest member fuel false s) P :=
      .after fun k => (hmember s k hs).bind fun s' hs' => ih false hs'
    refine .after fun c => ?_
    split
    · exact .failAhead _ _
    · exact .after fun _ => .pure hs
    · split_ifs
      · exact .after fun _ => hmembers
      · exact hmembers
      · refine .after fun _ => .after fun d => ?_
        split
        · exact .after fun _ => hmembers
        · exact hmembers
        · exact .after fun _ => hmembers
        · exact .after fun _ => hmembers
      · exact .after fun _ => hmembers

/-! ## Section 3: Values -/

/-- A member with a keyed value leaves the names distinct, new or not. -/
theorem keeps_anyMember {item : Reader Json} (hitem : Keeps item Keyed) (members : Dictionary Json)
    (name : String) (h : Keyed (.object members)) :
    Keeps (anyMember item members name) fun members => Keyed (.object members) := by
  exact .after fun _ => hitem.bind fun v hv => .pure (keyed_put h name hv)

theorem keeps_valueOver {inner : Option (Reader Json)}
    (hinner : ∀ item, inner = some item → Keeps item Keyed) : Keeps (valueOver inner) Keyed := by
  refine .after fun c => ?_
  -- One case for each character with which a value can start.
  split
  · exact .failAhead _ _
  · exact .after fun _ => .pure .null
  · exact .after fun _ => .pure (.flag true)
  · exact .after fun _ => .pure (.flag false)
  · exact .after fun s => .pure (.text s)
  · cases inner with
    | none => exact .failAhead _ _
    | some item =>
      have hitems := fun fuel => keeps_listRest (hinner item rfl) fuel true
      exact Keeps.bind (.after fun _ => .after fun _ => hitems _) fun xs hxs => .pure (.list hxs)
  · -- The entries are put in by name, so an object starts empty and stays without repetitions.
    cases inner with
    | none => exact .failAhead _ _
    | some item =>
      have hmembers := fun fuel => keeps_objectRest (keeps_anyMember (hinner item rfl)) fuel true
        keyed_empty
      exact Keeps.bind (.after fun _ => .after fun _ => hmembers _) fun ms hms => .pure hms
  · split
    · exact .after fun n => .pure (.number n)
    · exact .failAhead _ _

theorem keeps_value (depth : Nat) : Keeps (value depth) Keyed := by
  induction depth with
  | zero => exact keeps_valueOver fun _ h => nomatch h
  | succ depth ih =>
    refine keeps_valueOver ?_
    rintro item ⟨⟩
    exact ih

/-- What a whole text gives. -/
theorem Keeps.of_run {r : Reader α} {P : α → Prop} (hr : Keeps r P) {text : String} {x : α}
    (h : r.run text = .ok x) : P x := by
  obtain ⟨cur, hread, -⟩ := run_eq_ok_iff.1 h
  exact hr _ x cur hread

/-! ## Section 4: Repeated names -/

/-- A member with any value, added to those that were written before. -/
def writtenMember (item : Reader Json) (written : List (String × Json)) (name : String) :
    Reader (List (String × Json)) := do
  colon
  let v ← item
  return written ++ [(name, v)]

/-- The members of an object as they are written, names that are repeated included. -/
def writtenObject (depth : Nat) : Reader (List (String × Json)) := do
  if (← startOfValue) = '\x7b' then
    nested depth fun depth => object (writtenMember (value depth)) []
  else wrongKind "a map"

/-- The dictionary that written members make up. -/
def ofWritten (written : List (String × Json)) : Dictionary Json :=
  written.foldl (fun members (k, v) => Dictionary.put k v members) []

/-- A name has the last of its values. -/
theorem get?_ofWritten (name : String) (written : List (String × Json)) :
    Dictionary.get? name (ofWritten written) = Dictionary.get? name written.reverse := by
  induction written using List.reverseRecOn with
  | nil => rfl
  | append_singleton written m ih =>
    obtain ⟨k, v⟩ := m
    rw [ofWritten, List.foldl_append, List.reverse_append]
    show Dictionary.get? name (Dictionary.put k v (ofWritten written)) =
      Dictionary.get? name ((k, v) :: written.reverse)
    by_cases hk : k = name
    · rw [hk, Dictionary.get?_put_self, Dictionary.get?, if_pos rfl]
    · rw [Dictionary.get?_put_ne (Ne.symm hk), ih, Dictionary.get?, if_neg hk]

/-- Two readers that start alike differ by a map if they do so after the start. -/
theorem bind_eq_map (f : τ → σ) {r : Reader α} {g : α → Reader σ} {g' : α → Reader τ}
    (h : ∀ x, g x = f <$> g' x) : r >>= g = f <$> (r >>= g') := by
  rw [map_bind]
  exact bind_congr h

/-- Mapping the state of an object once at the end or after each member comes to the same. -/
theorem objectRest_map (f : τ → σ) {member : σ → String → Reader σ}
    {member' : τ → String → Reader τ} (h : ∀ s k, member (f s) k = f <$> member' s k)
    (fuel : Nat) (first : Bool) (s : τ) :
    objectRest member fuel first (f s) = f <$> objectRest member' fuel first s := by
  -- By induction on the fuel: both readers look at the same characters and differ only in what they
  -- gather.
  induction fuel generalizing first s with
  | zero => rfl
  | succ fuel ih =>
    have hmembers : (do
          let k ← string
          let s ← member (f s) k
          objectRest member fuel false s) =
        f <$> (do
          let k ← string
          let s ← member' s k
          objectRest member' fuel false s) := by
      refine bind_eq_map f fun k => ?_
      rw [h, bind_map_left]
      exact bind_eq_map f fun s' => ih false s'
    refine bind_eq_map f fun c => ?_
    split
    · rfl
    · exact bind_eq_map f fun _ => (map_pure f s).symm
    · split_ifs
      · exact bind_eq_map f fun _ => hmembers
      · exact hmembers
      · refine bind_eq_map f fun _ => bind_eq_map f fun d => ?_
        split
        · exact bind_eq_map f fun _ => hmembers
        · exact hmembers
        · exact bind_eq_map f fun _ => hmembers
        · exact bind_eq_map f fun _ => hmembers
      · exact bind_eq_map f fun _ => hmembers

/-- **An object is read as what its written members make up**, the last value of each name. -/
theorem object_eq_written (item : Reader Json) :
    object (anyMember item) [] = ofWritten <$> object (writtenMember item) [] := by
  have hmember : ∀ written k, anyMember item (ofWritten written) k =
      ofWritten <$> writtenMember item written k := by
    intro written k
    refine bind_eq_map ofWritten fun _ => bind_eq_map ofWritten fun v => ?_
    rw [map_pure, ofWritten, ofWritten, List.foldl_append]
    rfl
  exact bind_eq_map ofWritten fun _ => bind_eq_map ofWritten fun n =>
    objectRest_map ofWritten hmember (n + 1) true []

/-- Only what starts with a brace is read as an object. -/
theorem object_of_valueOver {inner : Option (Reader Json)} {cur cur' : Cursor}
    {members : Dictionary Json} (h : valueOver inner cur = .ok (.object members, cur')) :
    ∃ item start, inner = some item ∧ startOfValue cur = .ok ('\x7b', start) ∧
      object (anyMember item) [] start = .ok (members, cur') := by
  obtain ⟨c, start, hpeek, h⟩ := bind_eq_ok h
  -- Only the opening brace leads to an object; all other values are of other constructors.
  split at h
  · cases h
  · obtain ⟨_, _, _, h⟩ := bind_eq_ok h
    cases h
  · obtain ⟨_, _, _, h⟩ := bind_eq_ok h
    cases h
  · obtain ⟨_, _, _, h⟩ := bind_eq_ok h
    cases h
  · obtain ⟨_, _, _, h⟩ := bind_eq_ok h
    cases h
  · cases inner with
    | none => cases h
    | some item =>
      obtain ⟨_, _, _, h⟩ := bind_eq_ok h
      cases h
  · cases inner with
    | none => cases h
    | some item =>
      obtain ⟨ms, _, hms, h⟩ := bind_eq_ok h
      cases h
      exact ⟨item, start, rfl, bind_of_ok hpeek, hms⟩
  · split at h
    · obtain ⟨_, _, _, h⟩ := bind_eq_ok h
      cases h
    · cases h

/-- A value that is an object is what its written members make up. -/
theorem written_of_value {depth : Nat} {cur cur' : Cursor} {members : Dictionary Json}
    (h : value depth cur = .ok (.object members, cur')) :
    ∃ written, writtenObject depth cur = .ok (written, cur') ∧ members = ofWritten written := by
  -- Without any depth left no bracket is opened.
  match depth with
  | 0 =>
    obtain ⟨item, -, hnone, -⟩ := object_of_valueOver h
    cases hnone
  | depth + 1 =>
    obtain ⟨item, start, hitem, hstart, hmembers⟩ := object_of_valueOver h
    obtain rfl := Option.some.inj hitem
    rw [object_eq_written, map_eq_pure_bind] at hmembers
    obtain ⟨written, last, hwritten, hlast⟩ := bind_eq_ok hmembers
    cases hlast
    exact ⟨written, (bind_of_ok hstart).trans hwritten, rfl⟩

end Reader

/-- **A repeated name has the last of its values.** -/
theorem written_of_parse {text : String} {members : Dictionary Json}
    (h : parse text = .ok (.object members)) :
    ∃ written, (Reader.writtenObject nestingLimit).run text = .ok written ∧
      ∀ name, Dictionary.get? name members = Dictionary.get? name written.reverse := by
  obtain ⟨cur, hread, hrest⟩ := Reader.run_eq_ok_iff.1 h
  obtain ⟨written, hwritten, rfl⟩ := Reader.written_of_value hread
  exact ⟨written, Reader.run_eq_ok_iff.2 ⟨cur, hwritten, hrest⟩,
    fun name => Reader.get?_ofWritten name written⟩

theorem keyed_of_parse {text : String} {v : Json} (h : parse text = .ok v) : Keyed v :=
  (Reader.keeps_value nestingLimit).of_run h

end StackSurvey.Json
