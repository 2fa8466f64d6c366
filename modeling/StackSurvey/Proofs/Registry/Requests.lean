import Mathlib.Data.List.Nodup
import Mathlib.Data.List.TakeWhile
import StackSurvey.Proofs.Success
import StackSurvey.Registry.Basic

/-! # Requests for engines

    A request names an engine and, after a colon, a channel.  No name in a registry that has been
    accepted has a colon, so a request asks for one engine at most, whatever its channel is.

    * `Accepted`: what has been checked of the names in a registry.
    * `Asks` says what a request asks for; by `choose_of_asks` and `asks_of_choose` that is what
      is chosen. -/

namespace StackSurvey

/-! ## Section 1: Names before a colon -/

namespace Text

/-- A text has a first colon, or none. -/
theorem colon_cases (text : String) :
    ':' ∉ text.toList ∨
      ∃ name channel : String, ':' ∉ name.toList ∧ text = name ++ ":" ++ channel := by
  by_cases h : ':' ∈ text.toList
  · obtain ⟨front, back, heq, hf⟩ := List.eq_append_cons_of_mem h
    refine .inr ⟨String.ofList front, String.ofList back, by simpa using hf, ?_⟩
    apply String.toList_inj.1
    simp [heq]
  · exact .inl h

/-- Nothing in front of the first colon ends the search for it. -/
theorem forall_ne_colon {cs : List Char} (h : ':' ∉ cs) : ∀ c ∈ cs, decide (c ≠ ':') = true := by
  intro c hc
  have hne : c ≠ ':' := fun heq => h (heq ▸ hc)
  simpa using hne

theorem takeWhile_ne_colon {cs : List Char} (h : ':' ∉ cs) (rest : List Char) :
    (cs ++ ':' :: rest).takeWhile (· ≠ ':') = cs := by
  rw [List.takeWhile_append_of_pos (forall_ne_colon h)]
  simp

/-- A name without a colon can be read off, and so can what follows. -/
theorem append_colon_inj {name name' channel channel' : String} (h : ':' ∉ name.toList)
    (h' : ':' ∉ name'.toList) :
    name ++ ":" ++ channel = name' ++ ":" ++ channel' ↔ name = name' ∧ channel = channel' := by
  constructor
  · intro heq
    have hlist : name.toList ++ ':' :: channel.toList = name'.toList ++ ':' :: channel'.toList := by
      simpa using congrArg String.toList heq
    -- Both names end at the first colon.
    have hnames : name.toList = name'.toList := by
      have hsplit := congrArg (List.splitOn ':') hlist
      rw [List.splitOn_append_cons_self_of_not_mem h,
        List.splitOn_append_cons_self_of_not_mem h'] at hsplit
      exact (List.cons.inj hsplit).1
    rw [hnames] at hlist
    have hchannels : channel.toList = channel'.toList :=
      (List.cons.inj (List.append_cancel_left hlist)).2
    exact ⟨String.toList_inj.1 hnames, String.toList_inj.1 hchannels⟩
  · rintro ⟨rfl, rfl⟩
    rfl

end Text

namespace Engine

/-- Engines whose names have no colon have the same qualified name only if both name and channel
    are the same. -/
theorem qualifiedName_inj {x y : Engine} (hx : ':' ∉ x.name.toList) (hy : ':' ∉ y.name.toList) :
    x.qualifiedName = y.qualifiedName ↔ x.name = y.name ∧ x.channel = y.channel :=
  Text.append_colon_inj hx hy

end Engine

namespace Registry

/-! ## Section 2: Accepted registries -/

/-- What the check of a registry says of the names in it. -/
structure Accepted (r : Registry) : Prop where
  noColon : ∀ e ∈ r.entries, ':' ∉ e.name.toList
  distinct : (r.entries.map RegistryEntry.name).Nodup

theorem entryFault?_eq_none {earlier : List String} {e : RegistryEntry}
    (h : entryFault? earlier e = none) : ':' ∉ e.name.toList ∧ e.name ∉ earlier := by
  unfold entryFault? at h
  split_ifs at h with hblank hcolon hrepeated
  exact ⟨by simpa using hcolon, by simpa using hrepeated⟩

theorem firstFault?_eq_none {earlier : List String} {entries : List RegistryEntry}
    (h : firstFault? earlier entries = none) :
    (∀ e ∈ entries, ':' ∉ e.name.toList ∧ e.name ∉ earlier) ∧
      (entries.map RegistryEntry.name).Nodup := by
  -- By induction on the entries, each of which adds its name to those before it.
  induction entries generalizing earlier with
  | nil => exact ⟨fun e he => absurd he List.not_mem_nil, List.nodup_nil⟩
  | cons e entries ih =>
    unfold firstFault? at h
    split at h
    · cases h
    · next hfirst =>
      obtain ⟨hrest, hdistinct⟩ := ih h
      refine ⟨?_, ?_⟩
      · intro x hx
        rcases List.mem_cons.1 hx with rfl | hx
        · exact entryFault?_eq_none hfirst
        · obtain ⟨hcolon, hnew⟩ := hrest x hx
          exact ⟨hcolon, fun hm => hnew (List.mem_cons_of_mem _ hm)⟩
      · -- A later entry of this name would have been a fault: `e` is among the names before it.
        rw [List.map_cons, List.nodup_cons]
        refine ⟨fun hm => ?_, hdistinct⟩
        obtain ⟨x, hx, hname⟩ := List.mem_map.1 hm
        exact (hrest x hx).2 (hname ▸ List.mem_cons_self)

theorem accepted_of_parse {text : String} {r : Registry} (h : parse text = .ok r) : r.Accepted := by
  unfold parse at h
  split at h
  · cases h
  · split at h
    · cases h
    · next hfault =>
      cases h
      obtain ⟨hentries, hdistinct⟩ := firstFault?_eq_none hfault
      exact ⟨fun e he => (hentries e he).1, hdistinct⟩

variable {r : Registry}

/-- The name tells which entry is meant. -/
theorem Accepted.get?_name (hr : r.Accepted) {e : RegistryEntry} (he : e ∈ r.entries) :
    r.get? e.name = some e := by
  cases hfound : r.get? e.name with
  | none =>
    have hnot := List.find?_eq_none.1 hfound e he
    simp at hnot
  | some x =>
    -- What is found has the same name, so it is the same entry.
    have hname : x.name = e.name := by simpa using List.find?_some hfound
    have hx : x ∈ r.entries := List.mem_of_find?_eq_some hfound
    rw [List.inj_on_of_nodup_map hr.distinct hx he hname]

/-! ## Section 3: Requests -/

end Registry

/-- The channel of an entry when no other is asked for. -/
def RegistryEntry.channel (e : RegistryEntry) : String :=
  ((Dictionary.get? "channel" e.config).bind Json.asText?).getD Engine.defaultChannel

namespace Registry

variable {r : Registry} {codePath label request name channel : String} {x : Engine}

/-- A request asks for an entry by its name, and after a colon for a channel; without one it asks
    for the channel of the entry itself. -/
def Asks (r : Registry) (request name channel : String) : Prop :=
  ∃ e ∈ r.entries, e.name = name ∧
    (request = name ∧ channel = e.channel ∨ request = name ++ ":" ++ channel)

theorem splitRequest_of_not_mem (h : ':' ∉ request.toList) :
    splitRequest request = (request, none) := by
  have hnone : request.toList.dropWhile (· ≠ ':') = [] :=
    List.dropWhile_eq_nil_iff.2 (Text.forall_ne_colon h)
  unfold splitRequest
  simp only [hnone]

theorem splitRequest_append (h : ':' ∉ name.toList) (channel : String) :
    splitRequest (name ++ ":" ++ channel) = (name, some channel) := by
  have hlist : (name ++ ":" ++ channel).toList = name.toList ++ ':' :: channel.toList := by simp
  have hafter : (name.toList ++ ':' :: channel.toList).dropWhile (· ≠ ':') =
      ':' :: channel.toList := by
    rw [List.dropWhile_append_of_pos (Text.forall_ne_colon h)]
    simp
  unfold splitRequest
  simp only [hlist, hafter, Text.takeWhile_ne_colon h, String.ofList_toList]

@[simp] theorem engine_name (asked : Option String) (e : RegistryEntry) :
    (engine codePath label asked e).name = e.name := rfl

theorem engine_channel (asked : Option String) (e : RegistryEntry) :
    (engine codePath label asked e).channel = asked.getD e.channel := by
  cases asked with
  | none => rfl
  | some channel =>
    show ((Dictionary.get? "channel" (Dictionary.put "channel" (.text channel) e.config)).bind
      Json.asText?).getD Engine.defaultChannel = channel
    rw [Dictionary.get?_put_self]
    rfl

/-- What is asked for is chosen. -/
theorem choose_of_asks (hr : r.Accepted) (h : r.Asks request name channel)
    (codePath label : String) :
    ∃ x, r.choose codePath label request = .ok x ∧ x.name = name ∧ x.channel = channel := by
  obtain ⟨e, he, rfl, ⟨rfl, rfl⟩ | rfl⟩ := h
  · refine ⟨engine codePath label none e, ?_, rfl, engine_channel none e⟩
    unfold choose
    simp only [splitRequest_of_not_mem (hr.noColon e he), hr.get?_name he]
  · refine ⟨engine codePath label (some channel) e, ?_, rfl, engine_channel (some channel) e⟩
    unfold choose
    simp only [splitRequest_append (hr.noColon e he), hr.get?_name he]

/-- What is chosen was asked for. -/
theorem asks_of_choose (h : r.choose codePath label request = .ok x) :
    r.Asks request x.name x.channel := by
  unfold choose at h
  -- A request is a bare name, or a name and a channel with a colon between them.
  rcases Text.colon_cases request with hcolon | ⟨name, channel, hname, rfl⟩
  · simp only [splitRequest_of_not_mem hcolon] at h
    split at h
    · next e hfound =>
      cases h
      have hname : e.name = request := by simpa using List.find?_some hfound
      exact ⟨e, List.mem_of_find?_eq_some hfound, rfl, .inl ⟨hname.symm, engine_channel none e⟩⟩
    · cases h
  · simp only [splitRequest_append hname] at h
    split at h
    · next e hfound =>
      cases h
      have hfoundname : e.name = name := by simpa using List.find?_some hfound
      refine ⟨e, List.mem_of_find?_eq_some hfound, rfl, .inr ?_⟩
      rw [engine_channel, engine_name, hfoundname]
      rfl
    · cases h

/-- A request asks for nothing but the name and channel of what is chosen for it. -/
theorem asks_iff (hr : r.Accepted) (h : r.choose codePath label request = .ok x) :
    r.Asks request name channel ↔ x.name = name ∧ x.channel = channel := by
  constructor
  · intro hasks
    obtain ⟨y, hy, hname, hchannel⟩ := choose_of_asks hr hasks codePath label
    rw [h] at hy
    cases hy
    exact ⟨hname, hchannel⟩
  · rintro ⟨rfl, rfl⟩
    exact asks_of_choose h

/-! ## Section 4: Engines that are built -/

theorem build_of_requests {requests : List String} {engines : List Engine} (hne : requests ≠ []) :
    r.build codePath label requests = .ok engines ↔
      List.Forall₂ (fun request x => r.choose codePath label request = .ok x) requests engines := by
  unfold build
  rw [if_neg (by simpa using hne), Except.mapM_eq_ok]

theorem noColon_of_choose (hr : r.Accepted) (h : r.choose codePath label request = .ok x) :
    ':' ∉ x.name.toList := by
  obtain ⟨e, he, hname, -⟩ := asks_of_choose h
  exact hname ▸ hr.noColon e he

/-- No engine that is built has a colon in its name. -/
theorem noColon_of_build (hr : r.Accepted) {requests : List String} {engines : List Engine}
    (h : r.build codePath label requests = .ok engines) (hx : x ∈ engines) :
    ':' ∉ x.name.toList := by
  by_cases hne : requests = []
  · subst hne
    cases h
    obtain ⟨e, he, rfl⟩ := List.mem_map.1 hx
    exact hr.noColon e (List.mem_filter.1 he).1
  · have hchosen := (build_of_requests hne).1 h
    exact (hchosen.forall_mem_iff (P := fun _ => True) (Q := fun x => ':' ∉ x.name.toList)
      fun q y hy => iff_of_true trivial (noColon_of_choose hr hy)).1 (fun _ _ => trivial) x hx

/-- All that is enabled has different qualified names: the names are different already. -/
theorem Accepted.nodup_enabled (hr : r.Accepted) (codePath label : String) :
    ((r.enabled.map (engine codePath label none)).map Engine.qualifiedName).Nodup := by
  have hnames : r.enabled.Pairwise fun e e' => e.name ≠ e'.name :=
    (List.pairwise_map.1 hr.distinct).filter _
  rw [List.map_map]
  refine List.pairwise_map.2 (hnames.imp_of_mem fun {e e'} he he' hne heq => hne ?_)
  have hcolon := hr.noColon e (List.mem_filter.1 he).1
  have hcolon' := hr.noColon e' (List.mem_filter.1 he').1
  exact ((Engine.qualifiedName_inj (x := engine codePath label none e)
    (y := engine codePath label none e') hcolon hcolon').1 heq).1

end Registry
end StackSurvey
