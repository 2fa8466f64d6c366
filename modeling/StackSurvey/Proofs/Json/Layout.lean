import StackSurvey.Proofs.Dictionary
import StackSurvey.Proofs.Json.Scalars
import StackSurvey.Json.Object
import StackSurvey.Proofs.Json.Shape

/-! # Layouts, and what is read of them

    The two layouts differ only in the white space before items, members and closing brackets and
    after colons.  A `Layout` is any choice of that white space, and `write` the text it gives, so
    one proof serves both (`write_compact`, `write_pretty`).

    `Takes r v x` says that the reader `r` takes the text of the value `v`, however it is laid
    out, and gives `x`.  A list is taken if its items are (`reads_list`), an object if its members
    are, one after the other (`Enters`, `reads_object`). -/

namespace StackSurvey.Json

open Reader

/-! ## Section 1: Layouts -/

/-- The white space of a text. -/
structure Layout where
  /-- What stands before an item, a member or a closing bracket of a level. -/
  line : Nat → List Char
  /-- What stands between a colon and its value. -/
  gap : List Char
  isGap_line : ∀ level, IsGap (line level)
  isGap_gap : IsGap gap

namespace Layout

mutual

/-- A value in a layout, the brackets around it being `level` many. -/
def write (layout : Layout) (level : Nat) : Json → List Char
  | .null => ['n', 'u', 'l', 'l']
  | .flag b => flagChars b
  | .number n => numberChars n
  | .text s => quoted s
  | .list [] => ['[', ']']
  | .list (x :: xs) =>
    '[' :: (layout.line (level + 1) ++ (write layout (level + 1) x ++ writeItems layout level xs))
  | .object [] => ['\x7b', '\x7d']
  | .object ((k, v) :: rest) =>
    '\x7b' :: (layout.line (level + 1) ++ (quoted k ++ ':' :: (layout.gap ++
      (write layout (level + 1) v ++ writeMembers layout level rest))))

/-- The items after the first one, and the closing bracket. -/
def writeItems (layout : Layout) (level : Nat) : List Json → List Char
  | [] => layout.line level ++ [']']
  | x :: xs =>
    ',' :: (layout.line (level + 1) ++ (write layout (level + 1) x ++ writeItems layout level xs))

/-- The members after the first one, and the closing brace. -/
def writeMembers (layout : Layout) (level : Nat) : List (String × Json) → List Char
  | [] => layout.line level ++ ['\x7d']
  | (k, v) :: rest =>
    ',' :: (layout.line (level + 1) ++ (quoted k ++ ':' :: (layout.gap ++
      (write layout (level + 1) v ++ writeMembers layout level rest))))

end

def compact : Layout where
  line _ := []
  gap := []
  isGap_line _ := isGap_nil
  isGap_gap := isGap_nil

/-- A line for every item and member, indented by two spaces a level. -/
def pretty : Layout where
  line := newline
  gap := [' ']
  isGap_line level := by
    intro c hc
    rcases List.mem_cons.1 hc with rfl | hc
    · rfl
    · rw [List.eq_of_mem_replicate hc]
      rfl
  isGap_gap := by
    intro c hc
    rw [List.mem_singleton.1 hc]
    rfl

mutual

theorem write_compact (level : Nat) : ∀ v : Json, compact.write level v = compactChars v
  | .null => rfl
  | .flag _ => rfl
  | .number _ => rfl
  | .text _ => rfl
  | .list [] => rfl
  | .list (x :: xs) => by
    rw [write, compactChars, write_compact (level + 1) x, writeItems_compact level xs]
    rfl
  | .object [] => rfl
  | .object ((k, v) :: rest) => by
    rw [write, compactChars, write_compact (level + 1) v, writeMembers_compact level rest]
    simp [compact]

theorem writeItems_compact (level : Nat) :
    ∀ xs : List Json, compact.writeItems level xs = compactItems xs
  | [] => rfl
  | x :: xs => by
    rw [writeItems, compactItems, write_compact (level + 1) x, writeItems_compact level xs]
    rfl

theorem writeMembers_compact (level : Nat) :
    ∀ ms : List (String × Json), compact.writeMembers level ms = compactMembers ms
  | [] => rfl
  | (k, v) :: rest => by
    rw [writeMembers, compactMembers, write_compact (level + 1) v,
      writeMembers_compact level rest]
    simp [compact]

end

mutual

theorem write_pretty (level : Nat) : ∀ v : Json, pretty.write level v = prettyChars level v
  | .null => rfl
  | .flag _ => rfl
  | .number _ => rfl
  | .text _ => rfl
  | .list [] => rfl
  | .list (x :: xs) => by
    rw [write, prettyChars, write_pretty (level + 1) x, writeItems_pretty level xs]
    simp [pretty]
  | .object [] => rfl
  | .object ((k, v) :: rest) => by
    rw [write, prettyChars, write_pretty (level + 1) v, writeMembers_pretty level rest]
    simp [pretty]

theorem writeItems_pretty (level : Nat) :
    ∀ xs : List Json, pretty.writeItems level xs = prettyItems level xs
  | [] => rfl
  | x :: xs => by
    rw [writeItems, prettyItems, write_pretty (level + 1) x, writeItems_pretty level xs]
    simp [pretty]

theorem writeMembers_pretty (level : Nat) :
    ∀ ms : List (String × Json), pretty.writeMembers level ms = prettyMembers level ms
  | [] => rfl
  | (k, v) :: rest => by
    rw [writeMembers, prettyMembers, write_pretty (level + 1) v, writeMembers_pretty level rest]
    simp [pretty]

end

theorem write_list (layout : Layout) (level : Nat) (items : List Json) :
    ∃ more, layout.write level (.list items) = '[' :: more := by
  cases items <;> exact ⟨_, rfl⟩

theorem write_object (layout : Layout) (level : Nat) (members : List (String × Json)) :
    ∃ more, layout.write level (.object members) = '\x7b' :: more := by
  cases members <;> exact ⟨_, rfl⟩

/-- A written value starts with a character that is neither white space nor a closing bracket. -/
theorem write_head (layout : Layout) (level : Nat) {v : Json} (hv : v.hasDouble = false) :
    ∃ c more, layout.write level v = c :: more ∧ isSpace c = false ∧ c ≠ ']' := by
  match v, hv with
  | .null, _ => exact ⟨'n', _, rfl, rfl, by decide⟩
  | .flag true, _ => exact ⟨'t', _, rfl, rfl, by decide⟩
  | .flag false, _ => exact ⟨'f', _, rfl, rfl, by decide⟩
  | .number (.whole n), _ =>
    obtain ⟨c, more, hwhole, hc⟩ := wholeChars_head n.val
    refine ⟨c, more, hwhole, ?_, ?_⟩
    · rcases hc with rfl | hc
      · rfl
      · exact isSpace_of_isDigit hc
    · rintro rfl
      rcases hc with hc | hc <;> exact absurd hc (by decide)
  | .text _, _ => exact ⟨'"', _, rfl, rfl, by decide⟩
  | .list items, _ =>
    obtain ⟨more, hmore⟩ := layout.write_list level items
    exact ⟨'[', more, hmore, rfl, by decide⟩
  | .object members, _ =>
    obtain ⟨more, hmore⟩ := layout.write_object level members
    exact ⟨'\x7b', more, hmore, rfl, by decide⟩

/-- No text that starts in white space carries a number on. -/
theorem endsNumber_append {gap text : List Char} (hgap : IsGap gap) (htext : EndsNumber text) :
    EndsNumber (gap ++ text) := by
  cases gap with
  | nil => exact htext
  | cons c gap =>
    rintro d ⟨⟩
    exact endsNumber_of_isSpace (hgap c List.mem_cons_self)

theorem endsNumber_writeItems (layout : Layout) (level : Nat) (xs : List Json)
    (rest : List Char) : EndsNumber (layout.writeItems level xs ++ rest) := by
  cases xs with
  | nil =>
    rw [writeItems, List.append_assoc]
    refine endsNumber_append (layout.isGap_line level) ?_
    rintro c ⟨⟩
    decide
  | cons x xs =>
    rintro c ⟨⟩
    decide

theorem endsNumber_writeMembers (layout : Layout) (level : Nat) (ms : List (String × Json))
    (rest : List Char) : EndsNumber (layout.writeMembers level ms ++ rest) := by
  cases ms with
  | nil =>
    rw [writeMembers, List.append_assoc]
    refine endsNumber_append (layout.isGap_line level) ?_
    rintro c ⟨⟩
    decide
  | cons m ms =>
    rintro c ⟨⟩
    decide

theorem length_writeItems (layout : Layout) (level : Nat) (xs : List Json) :
    xs.length < (layout.writeItems level xs).length := by
  induction xs with
  | nil => simp [writeItems]
  | cons x xs ih =>
    simp only [writeItems, List.length_cons, List.length_append]
    omega

theorem length_writeMembers (layout : Layout) (level : Nat) (ms : List (String × Json)) :
    ms.length < (layout.writeMembers level ms).length := by
  induction ms with
  | nil => simp [writeMembers]
  | cons m ms ih =>
    simp only [writeMembers, List.length_cons, List.length_append]
    omega

end Layout

/-! ## Section 3: Readers of values -/

variable {α β : Type}

/-- The reader takes the text of `v`, however it is laid out, and gives `x`. -/
def Takes (r : Reader α) (v : Json) (x : α) : Prop :=
  ∀ (layout : Layout) (level : Nat) (gap rest : List Char), IsGap gap → EndsNumber rest →
    Reads r (gap ++ (layout.write level v ++ rest)) x rest

/-- The reader takes a colon and the text of `v`, and gives `x`. -/
def TakesMember (r : Reader α) (v : Json) (x : α) : Prop :=
  ∀ (layout : Layout) (level : Nat) (rest : List Char), EndsNumber rest →
    Reads r (':' :: (layout.gap ++ (layout.write level v ++ rest))) x rest

/-- What was taken is made something of. -/
theorem Takes.andThen {r : Reader α} {v : Json} {x : α} (hr : Takes r v x) (f : α → β) :
    Takes (do return f (← r)) v (f x) :=
  fun layout level gap rest hgap hrest =>
    (hr layout level gap rest hgap hrest).bind (.pure (f x) rest)

/-- A colon before what takes a value. -/
theorem Takes.afterColon {r : Reader α} {v : Json} {x : α} (hr : Takes r v x) :
    TakesMember (do colon; r) v x := by
  intro layout level rest hrest
  exact (reads_colon isGap_nil).bind
    (hr layout level layout.gap rest layout.isGap_gap hrest)

/-! ## Section 4: Lists -/

/-- The items after the first one. -/
theorem reads_listRest {item : Reader α} {items : List Json} {xs : List α}
    (h : List.Forall₂ (Takes item) items xs) (hdouble : ∀ v ∈ items, v.hasDouble = false)
    (layout : Layout) (level : Nat) {fuel : Nat} (hfuel : items.length < fuel)
    (rest : List Char) :
    Reads (listRest item fuel false) (layout.writeItems level items ++ rest) xs rest := by
  -- By induction on the items, each of which takes one unit of fuel.
  induction h generalizing fuel with
  | nil =>
    obtain ⟨fuel, rfl⟩ := Nat.exists_eq_succ_of_ne_zero (Nat.ne_of_gt hfuel)
    rw [Layout.writeItems, List.append_assoc]
    exact (reads_peekToken_cons (layout.isGap_line level) rfl).bind
      ((reads_advance ']' rest).bind (.pure [] rest))
  | @cons v x items xs hv _ ih =>
    obtain ⟨fuel, rfl⟩ := Nat.exists_eq_succ_of_ne_zero (Nat.ne_of_gt (Nat.zero_lt_of_lt hfuel))
    -- What is written starts with neither a space nor a bracket, so the reader takes it for an
    -- item.
    obtain ⟨c, more, hwrite, hspace, hbracket⟩ :=
      layout.write_head (level + 1) (hdouble v List.mem_cons_self)
    have hitem := hv layout (level + 1) [] _ isGap_nil
      (layout.endsNumber_writeItems level items rest)
    have hitems := ih (fun w hw => hdouble w (List.mem_cons_of_mem v hw))
      (Nat.lt_of_succ_lt_succ hfuel)
    rw [List.nil_append, hwrite] at hitem
    rw [Layout.writeItems, hwrite, List.cons_append, List.append_assoc, List.append_assoc]
    refine (reads_peekToken_cons isGap_nil rfl).bind ?_
    refine (reads_advance ',' _).bind ?_
    refine (reads_peekToken_cons (layout.isGap_line (level + 1)) hspace).bind ?_
    split
    · contradiction
    · exact absurd (Option.some.inj ‹_›) hbracket
    · exact hitem.bind (hitems.bind (.pure (x :: xs) rest))

/-- **A list is taken if its items are.** -/
theorem reads_list {item : Reader α} {items : List Json} {xs : List α}
    (h : List.Forall₂ (Takes item) items xs) (hdouble : ∀ v ∈ items, v.hasDouble = false)
    (layout : Layout) (level : Nat) (rest : List Char) :
    Reads (Reader.list item) (layout.write level (.list items) ++ rest) xs rest := by
  cases h with
  | nil =>
    refine (reads_advance '[' _).bind ((reads_remaining _).bind ?_)
    exact (reads_peekToken_cons isGap_nil rfl).bind
      ((reads_advance ']' rest).bind (.pure [] rest))
  | @cons v x items xs hv hvs =>
    obtain ⟨c, more, hwrite, hspace, hbracket⟩ :=
      layout.write_head (level + 1) (hdouble v List.mem_cons_self)
    have hitem := hv layout (level + 1) [] _ isGap_nil
      (layout.endsNumber_writeItems level items rest)
    have hitems : ∀ fuel, items.length < fuel →
        Reads (listRest item fuel false) (layout.writeItems level items ++ rest) xs rest :=
      fun _ hfuel => reads_listRest hvs (fun w hw => hdouble w (List.mem_cons_of_mem v hw)) layout
        level hfuel rest
    rw [List.nil_append, hwrite] at hitem
    rw [Layout.write, hwrite, List.cons_append, List.append_assoc, List.append_assoc]
    refine (reads_advance '[' _).bind ((reads_remaining _).bind ?_)
    refine (reads_peekToken_cons (layout.isGap_line (level + 1)) hspace).bind ?_
    -- The reader starts with as much fuel as there are characters left, and every item takes at
    -- least one.
    have hfuel := layout.length_writeItems level items
    split
    · contradiction
    · exact absurd (Option.some.inj ‹_›) hbracket
    · refine hitem.bind ((hitems _ ?_).bind (.pure (x :: xs) rest))
      simp only [List.length_append, List.length_cons]
      omega

/-! ## Section 5: Objects -/

/-- Taking the members one after the other leads from one state to another. -/
inductive Enters {σ : Type} (member : σ → String → Reader σ) :
    σ → List (String × Json) → σ → Prop
  | done (s : σ) : Enters member s [] s
  | enter {s₁ s₂ s₃ : σ} {k : String} {v : Json} {ms : List (String × Json)}
      (hmember : TakesMember (member s₁ k) v s₂) (hrest : Enters member s₂ ms s₃) :
      Enters member s₁ ((k, v) :: ms) s₃

/-- The members after the first one. -/
theorem reads_objectRest {σ : Type} {member : σ → String → Reader σ} {s₁ s₂ : σ}
    {ms : List (String × Json)} (h : Enters member s₁ ms s₂) (layout : Layout) (level : Nat)
    {fuel : Nat} (hfuel : ms.length < fuel) (rest : List Char) :
    Reads (objectRest member fuel false s₁) (layout.writeMembers level ms ++ rest) s₂ rest := by
  -- By induction on the members, in the same way as for lists.
  induction h generalizing fuel with
  | done s =>
    obtain ⟨fuel, rfl⟩ := Nat.exists_eq_succ_of_ne_zero (Nat.ne_of_gt hfuel)
    rw [Layout.writeMembers, List.append_assoc]
    exact (reads_peekToken_cons (layout.isGap_line level) rfl).bind
      ((reads_advance '\x7d' rest).bind (.pure s rest))
  | @enter s₁ s₂ s₃ k v ms hmember _ ih =>
    obtain ⟨fuel, rfl⟩ := Nat.exists_eq_succ_of_ne_zero (Nat.ne_of_gt (Nat.zero_lt_of_lt hfuel))
    have hvalue := hmember layout (level + 1) _ (layout.endsNumber_writeMembers level ms rest)
    have hmembers := ih (Nat.lt_of_succ_lt_succ hfuel)
    have hkey := reads_string k (':' :: (layout.gap ++ (layout.write (level + 1) v ++
      (layout.writeMembers level ms ++ rest))))
    simp only [Layout.writeMembers, List.cons_append, List.append_assoc]
    refine (reads_peekToken_cons isGap_nil rfl).bind ?_
    refine (reads_advance ',' _).bind ?_
    refine (reads_peekToken_cons (layout.isGap_line (level + 1)) rfl).bind ?_
    exact hkey.bind (hvalue.bind hmembers)

/-- **An object is taken if its members are.** -/
theorem reads_object {σ : Type} {member : σ → String → Reader σ} {s₁ s₂ : σ}
    {ms : List (String × Json)} (h : Enters member s₁ ms s₂) (layout : Layout) (level : Nat)
    (rest : List Char) :
    Reads (Reader.object member s₁) (layout.write level (.object ms) ++ rest) s₂ rest := by
  cases h with
  | done =>
    refine (reads_advance '\x7b' _).bind ((reads_remaining _).bind ?_)
    exact (reads_peekToken_cons isGap_nil rfl).bind
      ((reads_advance '\x7d' rest).bind (.pure _ rest))
  | @enter _ s _ k v ms hmember hrest =>
    have hvalue := hmember layout (level + 1) _ (layout.endsNumber_writeMembers level ms rest)
    have hmembers : ∀ fuel, ms.length < fuel →
        Reads (objectRest member fuel false s) (layout.writeMembers level ms ++ rest) s₂ rest :=
      fun _ hfuel => reads_objectRest hrest layout level hfuel rest
    have hkey := reads_string k (':' :: (layout.gap ++ (layout.write (level + 1) v ++
      (layout.writeMembers level ms ++ rest))))
    -- Again the fuel is the number of characters.
    have hfuel := layout.length_writeMembers level ms
    simp only [Layout.write, List.cons_append, List.append_assoc]
    refine (reads_advance '\x7b' _).bind ((reads_remaining _).bind ?_)
    refine (reads_peekToken_cons (layout.isGap_line (level + 1)) rfl).bind ?_
    refine hkey.bind (hvalue.bind (hmembers _ ?_))
    simp only [List.length_append, List.length_cons]
    omega

/-! ## Section 6: Any value -/

theorem value_eq_valueOver (depth : Nat) : ∃ inner, value depth = valueOver inner := by
  cases depth
  · exact ⟨none, rfl⟩
  · exact ⟨some (value _), rfl⟩

/-- A number is told by its sign or its first digit. -/
theorem takes_whole (inner : Option (Reader Json)) (n : Whole) :
    Takes (valueOver inner) (.number (.whole n)) (.number (.whole n)) := by
  intro layout level gap rest hgap hrest
  obtain ⟨c, more, hwhole, hc⟩ := wholeChars_head n.val
  have hread := reads_number n hrest
  have hsign : (decide (c = '-') || c.isDigit) = true := by
    rcases hc with hc | hc <;> simp [hc]
  have hspace : isSpace c = false := by
    rcases hc with rfl | hc
    · rfl
    · exact isSpace_of_isDigit hc
  rw [hwhole] at hread
  rw [Layout.write, numberChars, hwhole]
  refine (reads_peekToken_cons hgap hspace).bind ?_
  -- No other value starts with a sign or a digit.
  have hother : ∀ d : Char, (decide (d = '-') || d.isDigit) = false → some c ≠ some d := by
    rintro d hd ⟨⟩
    exact Bool.noConfusion (hsign.symm.trans hd)
  split
  · contradiction
  · exact absurd ‹_› (hother 'n' rfl)
  · exact absurd ‹_› (hother 't' rfl)
  · exact absurd ‹_› (hother 'f' rfl)
  · exact absurd ‹_› (hother '"' rfl)
  · exact absurd ‹_› (hother '[' rfl)
  · exact absurd ‹_› (hother '\x7b' rfl)
  · next hsame =>
    rw [← Option.some.inj hsame, if_pos hsign]
    exact hread.bind (.pure _ rest)

/-- A name that is new is entered at the end. -/
theorem enters_anyMember {item : Reader Json} {ms : List (String × Json)}
    (hitem : ∀ m ∈ ms, Takes item m.2 m.2) (before : Dictionary Json)
    (hnames : (Dictionary.names (before ++ ms)).Nodup) :
    Enters (anyMember item) before ms (before ++ ms) := by
  induction ms generalizing before with
  | nil =>
    rw [List.append_nil]
    exact .done before
  | cons m ms ih =>
    obtain ⟨k, v⟩ := m
    rw [List.append_cons] at hnames ⊢
    -- A name that was not there before is put at the end, so the order is that of the text.
    have hput : Dictionary.put k v before = before ++ [(k, v)] := by
      refine Dictionary.put_of_not_mem (fun hk => ?_) v
      rw [Dictionary.names, List.map_append, List.map_append, List.append_assoc,
        List.nodup_append] at hnames
      exact hnames.2.2 k hk k List.mem_cons_self rfl
    have hmember : TakesMember (anyMember item before k) v (before ++ [(k, v)]) := by
      rw [← hput]
      exact ((hitem (k, v) List.mem_cons_self).andThen (Dictionary.put k · before)).afterColon
    exact .enter hmember (ih (fun m hm => hitem m (List.mem_cons_of_mem _ hm)) _ hnames)

/-- **A value with distinct names and without doubles is read back**, if its brackets nest no
    deeper than they may. -/
theorem takes_value {v : Json} (h : Keyed v) {depth : Nat} (hnesting : v.nesting ≤ depth)
    (hdouble : v.hasDouble = false) : Takes (value depth) v v := by
  -- By induction on the value.  A scalar is read at any depth, while a bracket needs one level more
  -- than what is inside.
  induction h generalizing depth with
  | null =>
    obtain ⟨inner, hinner⟩ := value_eq_valueOver depth
    intro layout level gap rest hgap _
    rw [hinner]
    exact (reads_peekToken_cons hgap rfl).bind
      ((reads_word 'n' ['u', 'l', 'l'] rest).bind (.pure _ rest))
  | flag b =>
    obtain ⟨inner, hinner⟩ := value_eq_valueOver depth
    intro layout level gap rest hgap _
    rw [hinner]
    cases b with
    | true =>
      exact (reads_peekToken_cons hgap rfl).bind
        ((reads_word 't' ['r', 'u', 'e'] rest).bind (.pure _ rest))
    | false =>
      exact (reads_peekToken_cons hgap rfl).bind
        ((reads_word 'f' ['a', 'l', 's', 'e'] rest).bind (.pure _ rest))
  | number n =>
    obtain ⟨inner, hinner⟩ := value_eq_valueOver depth
    rw [hinner]
    cases n with
    | whole n => exact takes_whole inner n
    | double x => cases hdouble
  | text s =>
    obtain ⟨inner, hinner⟩ := value_eq_valueOver depth
    intro layout level gap rest hgap _
    rw [hinner]
    exact (reads_peekToken_cons hgap rfl).bind ((reads_string s rest).bind (.pure _ rest))
  | @list items _ ih =>
    cases depth with
    | zero => exact absurd hnesting (by simp [nesting])
    | succ depth =>
      rw [nesting_list_le] at hnesting
      rw [hasDouble_list] at hdouble
      have hitems : List.Forall₂ (Takes (value depth)) items items :=
        List.forall₂_same.2 fun v hv => ih v hv (hnesting v hv) (hdouble v hv)
      intro layout level gap rest hgap _
      have hread := reads_list hitems hdouble layout level rest
      obtain ⟨more, hmore⟩ := layout.write_list level items
      rw [hmore] at hread ⊢
      exact (reads_peekToken_cons hgap rfl).bind (hread.bind (.pure _ rest))
  | @object members hnames _ ih =>
    cases depth with
    | zero => exact absurd hnesting (by simp [nesting])
    | succ depth =>
      rw [nesting_object_le] at hnesting
      rw [hasDouble_object] at hdouble
      have hmembers : ∀ m ∈ members, Takes (value depth) m.2 m.2 :=
        fun m hm => ih m hm (hnesting m hm) (hdouble m hm)
      intro layout level gap rest hgap _
      have hread := reads_object (enters_anyMember hmembers [] hnames) layout level rest
      obtain ⟨more, hmore⟩ := layout.write_object level members
      rw [hmore] at hread ⊢
      exact (reads_peekToken_cons hgap rfl).bind (hread.bind (.pure _ rest))

/-! ## Section 7: Whole texts -/

/-- A text is read if nothing but white space is left in the end. -/
theorem run_eq_ok {r : Reader α} {text rest : List Char} {x : α} (h : Reads r text x rest)
    (hrest : IsGap rest) : r.run (String.ofList text) = .ok x := by
  obtain ⟨cur, hread, hcur⟩ := h (Cursor.start text) rfl
  have hend : StartsToken [] := fun _ hc => nomatch hc
  have hskip : (skipSpaces cur (rest ++ [])).rest = [] :=
    skipSpaces_rest hrest hend cur (hcur.trans (List.append_nil rest).symm)
  rw [List.append_nil, ← hcur] at hskip
  rw [run_eq_ok_iff, String.toList_ofList]
  exact ⟨cur, hread, hskip⟩

theorem endsNumber_nil : EndsNumber [] := fun _ hc => nomatch hc

/-- **The compact text of a value is read back.** -/
theorem parse_compact {v : Json} (h : Keyed v) (hnesting : v.nesting ≤ nestingLimit)
    (hdouble : v.hasDouble = false) : parse v.compact = .ok v := by
  have hread := takes_value h hnesting hdouble .compact 0 [] [] isGap_nil endsNumber_nil
  rw [Layout.write_compact, List.nil_append, List.append_nil] at hread
  exact run_eq_ok hread isGap_nil

end StackSurvey.Json
