import StackSurvey.Proofs.Registry.Requests
import StackSurvey.Survey.Run

/-! # Plans from a registry

    An engine is known by its name and its channel with a colon between them, and a plan repeats
    none of these qualified names.

    * `repeated_of_ofEngines`: the fault of a plan names the first repetition.
    * `repeated_iff`: a name is repeated just if two requests ask for the same engine.
    * `plan_of_accepted`: a registry that has been accepted gives a plan of all its engines. -/

namespace StackSurvey

/-! ## Section 1: Repeated engines -/

namespace Plan

variable {engines : List Engine}

theorem ofEngines_of_nodup (h : (engines.map Engine.qualifiedName).Nodup) :
    ofEngines engines = .ok ⟨engines, h⟩ := by
  unfold ofEngines
  split
  · next name hname =>
    have hnone : firstRepeated [] (engines.map Engine.qualifiedName) = none :=
      firstRepeated_eq_none.2 ⟨h, fun _ _ => List.not_mem_nil⟩
    rw [hnone] at hname
    cases hname
  · rfl

theorem engines_of_ofEngines {p : Plan} (h : ofEngines engines = .ok p) : p.engines = engines := by
  unfold ofEngines at h
  split at h
  · cases h
  · cases h
    rfl

/-- There is a plan just if no qualified name is repeated. -/
theorem ofEngines_eq_error_iff :
    (∃ fault, ofEngines engines = .error fault) ↔
      ¬ (engines.map Engine.qualifiedName).Nodup := by
  constructor
  · rintro ⟨fault, hfault⟩ hdistinct
    rw [ofEngines_of_nodup hdistinct] at hfault
    cases hfault
  · intro h
    cases hplan : ofEngines engines with
    | error fault => exact ⟨fault, rfl⟩
    | ok p => exact absurd (engines_of_ofEngines hplan ▸ p.distinct) h

theorem firstRepeated_eq_some {seen names : List String} {name : String}
    (h : firstRepeated seen names = some name) :
    ∃ before after, names = before ++ name :: after ∧ before.Nodup ∧
      (∀ n ∈ before, n ∉ seen) ∧ (name ∈ seen ∨ name ∈ before) := by
  -- By induction on the names.  Those seen before the list and those seen in it are told apart,
  -- since only the latter are among the names before the repetition.
  induction names generalizing seen with
  | nil => cases h
  | cons first rest ih =>
    unfold firstRepeated at h
    split at h
    · next hseen =>
      cases h
      exact ⟨[], rest, rfl, List.nodup_nil, fun n hn => absurd hn List.not_mem_nil, .inl hseen⟩
    · next hseen =>
      obtain ⟨before, after, rfl, hdistinct, hnew, hrepeated⟩ := ih h
      refine ⟨first :: before, after, rfl, List.nodup_cons.2 ⟨?_, hdistinct⟩, ?_, ?_⟩
      · exact fun hm => hnew first hm List.mem_cons_self
      · intro n hn
        rcases List.mem_cons.1 hn with rfl | hn
        · exact hseen
        · exact fun hm => hnew n hn (List.mem_cons_of_mem _ hm)
      · rcases hrepeated with hmem | hmem
        · rcases List.mem_cons.1 hmem with rfl | hmem
          · exact .inr List.mem_cons_self
          · exact .inl hmem
        · exact .inr (List.mem_cons_of_mem _ hmem)

/-- The fault names the first engine whose qualified name has come before. -/
theorem repeated_of_ofEngines {fault : PlanFault} (h : ofEngines engines = .error fault) :
    ∃ before x after, engines = before ++ x :: after ∧
      fault = .repeatedEngine x.qualifiedName ∧ (before.map Engine.qualifiedName).Nodup ∧
      x.qualifiedName ∈ before.map Engine.qualifiedName := by
  unfold ofEngines at h
  split at h
  · next name hname =>
    cases h
    obtain ⟨before, after, hnames, hdistinct, -, hrepeated⟩ := firstRepeated_eq_some hname
    obtain ⟨front, back, rfl, rfl, hback⟩ := List.map_eq_append_iff.1 hnames
    obtain ⟨x, later, rfl, rfl, -⟩ := List.map_eq_cons_iff.1 hback
    exact ⟨front, x, later, rfl, rfl, hdistinct,
      hrepeated.resolve_left List.not_mem_nil⟩
  · cases h

end Plan

namespace Registry

variable {r : Registry}

/-! ## Section 2: Repeated requests -/

/-- Requests ask for the same engine twice just if the engines built for them have a qualified
    name twice. -/
theorem repeated_iff (hr : r.Accepted) {codePath label : String} {requests : List String}
    {engines : List Engine}
    (h : List.Forall₂ (fun request x => r.choose codePath label request = .ok x)
      requests engines) :
    ¬ (engines.map Engine.qualifiedName).Nodup ↔
      ∃ q q' name channel, [q, q'].Sublist requests ∧ r.Asks q name channel ∧
        r.Asks q' name channel := by
  -- Requests differ in what they ask for just if their engines differ in the qualified name.
  have hdifferent : ∀ q x q' x', r.choose codePath label q = .ok x →
      r.choose codePath label q' = .ok x' →
      ((¬ ∃ name channel, r.Asks q name channel ∧ r.Asks q' name channel) ↔
        x.qualifiedName ≠ x'.qualifiedName) := by
    intro q x q' x' hx hx'
    rw [ne_eq, not_iff_not, Engine.qualifiedName_inj (noColon_of_choose hr hx)
      (noColon_of_choose hr hx')]
    constructor
    · rintro ⟨name, channel, hq, hq'⟩
      obtain ⟨rfl, rfl⟩ := (asks_iff hr hx).1 hq
      obtain ⟨hname, hchannel⟩ := (asks_iff hr hx').1 hq'
      exact ⟨hname.symm, hchannel.symm⟩
    · rintro ⟨hname, hchannel⟩
      refine ⟨x.name, x.channel, asks_of_choose hx, ?_⟩
      rw [hname, hchannel]
      exact asks_of_choose hx'
  -- So the engines differ pair by pair just if the requests do.
  have hpairwise : (engines.map Engine.qualifiedName).Nodup ↔
      requests.Pairwise fun q q' =>
        ¬ ∃ name channel, r.Asks q name channel ∧ r.Asks q' name channel :=
    List.pairwise_map.trans (h.pairwise_iff hdifferent).symm
  rw [hpairwise, List.pairwise_iff_forall_sublist]
  constructor
  · intro hnot
    simp only [not_forall, not_not] at hnot
    obtain ⟨q, q', hsublist, name, channel, hq, hq'⟩ := hnot
    exact ⟨q, q', name, channel, hsublist, hq, hq'⟩
  · rintro ⟨q, q', name, channel, hsublist, hq, hq'⟩ hall
    exact hall hsublist ⟨name, channel, hq, hq'⟩

/-- **What has been accepted as a registry gives a plan.**  Without requests all enabled entries
    are taken, in their order, and no qualified name is repeated, whatever channels they have.
    With requests one is repeated if and only if two of them ask for the same name and channel,
    and the fault names the first repetition.  A qualified name stands for one name and one
    channel, in all that is ever built. -/
theorem plan_of_accepted {text : String} (hr : parse text = .ok r) (codePath label : String) :
    (∃ p : Plan, p.engines =
          (r.entries.filter RegistryEntry.enabled).map (engine codePath label none) ∧
        r.build codePath label [] = .ok p.engines ∧ Plan.ofEngines p.engines = .ok p) ∧
      (∀ requests engines, r.build codePath label requests = .ok engines →
        ((∃ fault, Plan.ofEngines engines = .error fault) ↔
          ∃ q q' name channel, [q, q'].Sublist requests ∧ r.Asks q name channel ∧
            r.Asks q' name channel) ∧
        ∀ fault, Plan.ofEngines engines = .error fault →
          ∃ before x after, engines = before ++ x :: after ∧
            fault = .repeatedEngine x.qualifiedName ∧
            (before.map Engine.qualifiedName).Nodup ∧
            x.qualifiedName ∈ before.map Engine.qualifiedName) ∧
      ∀ codePath' label' requests requests' engines engines',
        r.build codePath label requests = .ok engines →
        r.build codePath' label' requests' = .ok engines' →
        ∀ x ∈ engines, ∀ y ∈ engines', x.qualifiedName = y.qualifiedName →
          x.name = y.name ∧ x.channel = y.channel := by
  have haccepted : r.Accepted := accepted_of_parse hr
  have henabled := haccepted.nodup_enabled codePath label
  refine ⟨?_, ?_, ?_⟩
  · exact ⟨⟨_, henabled⟩, rfl, rfl, Plan.ofEngines_of_nodup henabled⟩
  · intro requests engines hbuild
    refine ⟨?_, fun fault hfault => Plan.repeated_of_ofEngines hfault⟩
    rw [Plan.ofEngines_eq_error_iff]
    by_cases hne : requests = []
    · -- Nothing is asked for twice if nothing is asked for.
      subst hne
      cases hbuild
      refine ⟨fun hnot => absurd henabled hnot, ?_⟩
      rintro ⟨q, q', name, channel, hsublist, -, -⟩
      cases hsublist
    · exact repeated_iff haccepted ((build_of_requests hne).1 hbuild)
  · intro codePath' label' requests requests' engines engines' hbuild hbuild' x hx y hy heq
    exact (Engine.qualifiedName_inj (noColon_of_build haccepted hbuild hx)
      (noColon_of_build haccepted hbuild' hy)).1 heq

/-- A channel with a colon, which one request names and another one leaves to the entry; and a
    channel that is no text. -/
theorem plan_of_accepted_channel_with_colon :
    let text :=
      "engine = [\x7bname = \"lint\", image = \"l\", config = \x7bchannel = \"a:b\"\x7d\x7d, " ++
      "\x7bname = \"slow\", enabled = false, image = \"s\", config = \x7bchannel = 7\x7d\x7d]"
    let requests := ["lint", "slow", "lint:a:b"]
    ∃ r engines, parse text = .ok r ∧
      (∃ p : Plan, r.build "/src" "ci" [] = .ok p.engines ∧ Plan.ofEngines p.engines = .ok p) ∧
      r.build "/src" "ci" requests = .ok engines ∧
      engines.map Engine.qualifiedName = ["lint:a:b", "slow:stable", "lint:a:b"] ∧
      ∃ q q' name channel, [q, q'].Sublist requests ∧ r.Asks q name channel ∧
        r.Asks q' name channel := by
  intro text requests
  have hnames : ((parse text).toOption.bind fun r =>
      (r.build "/src" "ci" requests).toOption.map (List.map Engine.qualifiedName)) =
        some ["lint:a:b", "slow:stable", "lint:a:b"] := by decide +kernel
  rcases hparse : parse text with fault | r
  · rw [hparse] at hnames
    cases hnames
  · rw [hparse] at hnames
    obtain ⟨engines, hbuild, hengines⟩ := Option.map_eq_some_iff.1 hnames
    have hbuilt : r.build "/src" "ci" requests = .ok engines := by
      rcases hr : r.build "/src" "ci" requests with fault | xs
      · rw [hr] at hbuild
        cases hbuild
      · rw [hr] at hbuild
        cases hbuild
        rfl
    obtain ⟨⟨p, -, hp, hplan⟩, hrequested, -⟩ := plan_of_accepted hparse "/src" "ci"
    -- Two of the three names are the same although the requests differ.
    have hrepeated : ∃ fault, Plan.ofEngines engines = .error fault := by
      rw [Plan.ofEngines_eq_error_iff, hengines]
      decide
    exact ⟨r, engines, rfl, ⟨p, hp, hplan⟩, hbuilt, hengines,
      (hrequested requests engines hbuilt).1.1 hrepeated⟩

end Registry
end StackSurvey
