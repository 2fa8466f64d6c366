import Mathlib.Algebra.GroupWithZero.Nat
import StackSurvey.Proofs.Dictionary
import StackSurvey.Proofs.Number.Word
import StackSurvey.Proofs.Text.Utf8
import StackSurvey.Settings.Environment

/-! # What the environment decides

    The environment has its say setting by setting.  Every setting is a field of a section
    (`Key`), and the variables that are looked at are kept in a table, each with the setting that
    it is for (`overrides_eq`).  One variable changes its own setting and no other one
    (`get_apply_self`, `get_apply_ne`); from this, by induction over the table, a setting has in
    the end what the last variable for it says, if one of them says something (`get_applyAll`).

    * `decided_by_environment`: for each setting the variables that count and which of them goes
      first; all others are without influence.
    * `follows_namesake_iff`: all settings but one follow the variable that is named after their
      section and field. -/

namespace StackSurvey

/-- A variable is a text just if its bytes are the encoding of that text. -/
theorem Environment.text?_eq_some_iff {env : Environment} {name text : String} :
    env.text? name = some text ↔ Dictionary.get? name env = some (Utf8.encode text) := by
  have hdecode : ∀ bytes : Bytes,
      (Utf8.decode bytes).toOption = some text ↔ bytes = Utf8.encode text := by
    intro bytes
    rw [← Utf8.decode_eq_ok_iff]
    cases Utf8.decode bytes <;> simp [Except.toOption]
  simp only [Environment.text?, Option.bind_eq_some_iff, hdecode, exists_eq_right]

namespace Settings

/-! ## Section 1: Settings one by one -/

/-- The settings, section by section. -/
inductive Key where
  | logLevel | logFormat
  | socket | memory | timeout | hostDirectory | directory | user | errorLimit
  | reportFormat | cap
deriving DecidableEq

inductive Value where
  | text (t : String)
  | number (n : Nat)
deriving DecidableEq

def Value.toJson : Value → Json
  | .text t => .text t
  | .number n => .ofNat n

/-- The value as a variable gives it. -/
def Value.spelling : Value → String
  | .text t => t
  | .number n => toString n

namespace Key

/-- All settings, in the order of a file. -/
def all : List Key :=
  [logLevel, logFormat, socket, memory, timeout, hostDirectory, directory, user, errorLimit,
    reportFormat, cap]

/-- What the section of a setting is called in a file. -/
def sectionName : Key → String
  | logLevel | logFormat => "general"
  | socket | memory | timeout | hostDirectory | directory | user | errorLimit => "runtime"
  | reportFormat | cap => "output"

/-- What a setting is called in its section. -/
def fieldName : Key → String
  | logLevel => "log_level"
  | logFormat => "log_format"
  | socket => "docker_socket"
  | memory => "memory_limit_bytes"
  | timeout => "timeout_secs"
  | hostDirectory => "tmp_host_dir"
  | directory => "tmp_container_dir"
  | user => "user"
  | errorLimit => "max_stderr_bytes"
  | reportFormat => "format"
  | cap => "max_findings_per_engine"

def isNumber : Key → Bool
  | memory | timeout | errorLimit | cap => true
  | _ => false

/-- A value of the kind that the setting has, a number being a word of 64 bits. -/
def Takes (k : Key) : Value → Prop
  | .text _ => k.isNumber = false
  | .number n => k.isNumber = true ∧ n < 2 ^ 64

end Key

/-- What a setting is. -/
def get (s : Settings) : Key → Value
  | .logLevel => .text s.log.level
  | .logFormat => .text s.log.format
  | .socket => .text s.container.socket
  | .memory => .number s.container.memory
  | .timeout => .number s.container.timeout
  | .hostDirectory => .text s.container.hostDirectory
  | .directory => .text s.container.directory
  | .user => .text s.container.user
  | .errorLimit => .number s.container.errorLimit
  | .reportFormat => .text s.report.format
  | .cap => .number s.report.cap

/-- The settings with another value for one of them, if the value is of its kind. -/
def set (s : Settings) : Key → Value → Settings
  | .logLevel, .text level => { s with log := { s.log with level } }
  | .logFormat, .text format => { s with log := { s.log with format } }
  | .socket, .text socket => { s with container := { s.container with socket } }
  | .memory, .number memory => { s with container := { s.container with memory } }
  | .timeout, .number timeout => { s with container := { s.container with timeout } }
  | .hostDirectory, .text hostDirectory =>
    { s with container := { s.container with hostDirectory } }
  | .directory, .text directory => { s with container := { s.container with directory } }
  | .user, .text user => { s with container := { s.container with user } }
  | .errorLimit, .number errorLimit => { s with container := { s.container with errorLimit } }
  | .reportFormat, .text format => { s with report := { s.report with format } }
  | .cap, .number cap => { s with report := { s.report with cap } }
  | _, _ => s

variable {s t : Settings} {k : Key} {v : Value} {env : Environment} {name : String}

/-- The settings as data have these sections and these fields, and no others. -/
theorem toJson_eq (s : Settings) :
    s.toJson = .object (["general", "runtime", "output"].map fun part =>
      (part, .object ((Key.all.filter fun k => k.sectionName = part).map fun k =>
        (k.fieldName, (s.get k).toJson)))) := rfl

/-- Settings are the same if they are the same one by one. -/
theorem ext_get (h : ∀ k, s.get k = t.get k) : s = t := by
  obtain ⟨⟨⟩, ⟨⟩, ⟨⟩⟩ := s
  obtain ⟨⟨⟩, ⟨⟩, ⟨⟩⟩ := t
  have hall : ∀ k ∈ Key.all, _ := fun k _ => h k
  simp only [Key.all, List.forall_mem_cons, List.not_mem_nil, false_implies, implies_true, get,
    Value.text.injEq, Value.number.injEq, and_true] at hall
  simp only [hall]

theorem get_set_self (s : Settings) (h : k.Takes v) : (s.set k v).get k = v := by
  cases v with
  | text t => cases k <;> first | rfl | exact nomatch h
  | number n => cases k <;> first | rfl | exact nomatch h.1

theorem get_set_ne {k' : Key} (h : k' ≠ k) (s : Settings) (v : Value) :
    (s.set k v).get k' = s.get k' := by
  cases v <;> cases k <;> cases k' <;> first | rfl | exact absurd rfl h

/-! ## Section 2: What a variable says -/

namespace Key

/-- The value that a text gives a setting, if it gives one. -/
def read? (k : Key) (text : String) : Option Value :=
  if k.isNumber then (Word.read? numberBits text).map .number else some (.text text)

/-- What a variable says about a setting.  One that is not set or is no text says nothing, and
    neither does one that is no number where a number is wanted. -/
def said? (k : Key) (env : Environment) (name : String) : Option Value :=
  (env.text? name).bind k.read?

/-- The text is a value of the setting, or a numeral for one. -/
def Spells (k : Key) (text : String) : Value → Prop
  | .text t => k.isNumber = false ∧ text = t
  | .number n => k.isNumber = true ∧ Word.Spells text n ∧ n < 2 ^ 64

theorem read?_eq_some_iff {text : String} : k.read? text = some v ↔ k.Spells text v := by
  unfold read?
  cases hk : k.isNumber <;> cases v <;>
    simp [Spells, hk, numberBits, Option.map_eq_some_iff, Word.read?_eq_some_iff]

/-- What counts is the bytes of a variable, and whether they encode a text of the right form. -/
theorem said?_eq_some_iff :
    k.said? env name = some v ↔
      ∃ text, Dictionary.get? name env = some (Utf8.encode text) ∧ k.Spells text v := by
  simp only [said?, Option.bind_eq_some_iff, Environment.text?_eq_some_iff, read?_eq_some_iff]

theorem said?_eq_none_of_unset (h : Dictionary.get? name env = none) :
    k.said? env name = none := by
  rw [said?, Environment.text?, h]
  rfl

/-- A value is said by its own spelling. -/
theorem Takes.said? (hv : k.Takes v)
    (h : Dictionary.get? name env = some (Utf8.encode v.spelling)) : k.said? env name = some v := by
  refine said?_eq_some_iff.2 ⟨v.spelling, h, ?_⟩
  cases v with
  | text t => exact ⟨hv, rfl⟩
  | number n => exact ⟨hv.1, ⟨"", 0, .inl rfl, by simp [Value.spelling]⟩, hv.2⟩

/-- Nothing else than a value of the right kind is ever said. -/
theorem takes_of_said? (h : k.said? env name = some v) : k.Takes v := by
  obtain ⟨text, -, hspells⟩ := said?_eq_some_iff.1 h
  cases v with
  | text t => exact hspells.1
  | number n => exact ⟨hspells.1, hspells.2.2⟩

end Key

/-! ## Section 3: One variable -/

/-- What a variable for a setting does. -/
def Key.target (k : Key) : Target :=
  if k.isNumber then
    .number (if k = .cap then "usize" else "u64") fun s n => s.set k (.number n)
  else .text fun s t => s.set k (.text t)

/-- The variables, in the order in which they are looked at, and the setting each is for. -/
def overrideTable : List (String × Key) := [
  ("BELUGAS_GENERAL_LOG_LEVEL", .logLevel),
  ("BELUGAS_GENERAL_LOG_FORMAT", .logFormat),
  ("BELUGAS_RUNTIME_DOCKER_SOCKET", .socket),
  ("BELUGAS_RUNTIME_MEMORY_LIMIT_BYTES", .memory),
  ("ENGINE_MEMORY_LIMIT_BYTES", .memory),
  ("BELUGAS_RUNTIME_TIMEOUT_SECS", .timeout),
  ("CONTAINER_TIMEOUT_SECONDS", .timeout),
  ("BELUGAS_RUNTIME_TMP_HOST_DIR", .hostDirectory),
  ("BELUGAS_RUNTIME_TMP_CONTAINER_DIR", .directory),
  ("BELUGAS_RUNTIME_USER", .user),
  ("BELUGAS_OUTPUT_FORMAT", .reportFormat),
  ("BELUGAS_OUTPUT_MAX_FINDINGS_PER_ENGINE", .cap)]

/-- All that is looked at is in the table. -/
theorem overrides_eq : overrides = overrideTable.map fun (name, k) => ⟨name, k.target⟩ := rfl

theorem apply_target (env : Environment) (name : String) (k : Key) (s : Settings) :
    ((⟨name, k.target⟩ : Override).apply env s).1 = ((k.said? env name).map (s.set k)).getD s := by
  unfold Override.apply Key.said?
  dsimp only
  rcases env.text? name with _ | text
  · rfl
  · unfold Key.target Key.read?
    cases k.isNumber with
    | false => rfl
    | true =>
      simp only [if_true, Option.bind_some]
      cases Word.read? numberBits text <;> rfl

/-- A variable decides about its own setting, if it says something. -/
theorem get_apply_self (env : Environment) (name : String) (k : Key) (s : Settings) :
    ((⟨name, k.target⟩ : Override).apply env s).1.get k = (k.said? env name).getD (s.get k) := by
  rw [apply_target]
  cases h : k.said? env name with
  | none => rfl
  | some v => exact get_set_self s (Key.takes_of_said? h)

/-- It decides about no other setting. -/
theorem get_apply_ne {k' : Key} (h : k' ≠ k) (env : Environment) (name : String) (s : Settings) :
    ((⟨name, k.target⟩ : Override).apply env s).1.get k' = s.get k' := by
  rw [apply_target]
  cases k.said? env name with
  | none => rfl
  | some v => exact get_set_ne h s v

/-! ## Section 4: All variables -/

/-- The variables for a setting that are in a table, the last one first. -/
def lastFirst (k : Key) (table : List (String × Key)) : List String :=
  ((table.filter fun entry => entry.2 = k).map Prod.fst).reverse

theorem lastFirst_cons_self (name : String) (k : Key) (table : List (String × Key)) :
    lastFirst k ((name, k) :: table) = lastFirst k table ++ [name] := by
  simp [lastFirst]

theorem lastFirst_cons_ne {k' : Key} (h : k ≠ k') (name : String) (table : List (String × Key)) :
    lastFirst k ((name, k') :: table) = lastFirst k table := by
  simp [lastFirst, Ne.symm h]

/-- **The last variable that says something about a setting decides about it.** -/
theorem get_applyAll (env : Environment) (table : List (String × Key)) (s : Settings) (k : Key) :
    (applyAll env (table.map fun (name, k) => ⟨name, k.target⟩) s).1.get k =
      ((lastFirst k table).findSome? (k.said? env)).getD (s.get k) := by
  -- By induction on the table, from the first variable on; the last one that says something is
  -- asked first.
  induction table generalizing s with
  | nil => rfl
  | cons entry rest ih =>
    obtain ⟨name, k'⟩ := entry
    show (applyAll env (rest.map _) ((⟨name, k'.target⟩ : Override).apply env s).1).1.get k = _
    rw [ih]
    by_cases hk : k = k'
    · -- What the later variables leave open is left to this one, and then to the old settings.
      subst hk
      rw [get_apply_self, lastFirst_cons_self, List.findSome?_append]
      cases (lastFirst k rest).findSome? (k.said? env) <;> simp
    · rw [get_apply_ne hk, lastFirst_cons_ne hk]

/-- Only the variables that are looked at matter. -/
theorem applyAll_congr {env env' : Environment} {os : List Override}
    (h : ∀ o ∈ os, Dictionary.get? o.name env' = Dictionary.get? o.name env) (s : Settings) :
    applyAll env' os s = applyAll env os s := by
  induction os generalizing s with
  | nil => rfl
  | cons o rest ih =>
    obtain ⟨hfirst, hrest⟩ := List.forall_mem_cons.1 h
    have hsame : o.apply env' s = o.apply env s := by
      rw [Override.apply, Override.apply, Environment.text?, Environment.text?, hfirst]
    simp only [applyAll, hsame, ih hrest]

/-! ## Section 5: The variables of a setting -/

namespace Key

/-- The letters of a text as capitals. -/
def capitals (text : String) : String := String.ofList (text.toList.map Char.toUpper)

/-- The variable that is named after the section and the field of a setting. -/
def namesake (k : Key) : String :=
  "BELUGAS_" ++ capitals k.sectionName ++ "_" ++ capitals k.fieldName

/-- The names from before that variables were named after settings. -/
def legacy : Key → List String
  | memory => ["ENGINE_MEMORY_LIMIT_BYTES"]
  | timeout => ["CONTAINER_TIMEOUT_SECONDS"]
  | _ => []

/-- The variables that decide about a setting.  The first one that says something wins; about the
    number of bytes kept of the error channel none is asked. -/
def sources : Key → List String
  | errorLimit => []
  | k => k.legacy ++ [k.namesake]

theorem sources_of_ne (h : k ≠ errorLimit) : k.sources = k.legacy ++ [k.namesake] := by
  cases k <;> first | rfl | exact absurd rfl h

/-- These are the variables in the table. -/
theorem lastFirst_overrideTable (k : Key) : lastFirst k overrideTable = k.sources := by
  cases k <;> decide +kernel

end Key

theorem get_withEnvironment (s : Settings) (env : Environment) (k : Key) :
    (s.withEnvironment env).1.get k =
      (k.sources.findSome? (k.said? env)).getD (s.get k) := by
  rw [withEnvironment, overrides_eq, get_applyAll, Key.lastFirst_overrideTable]

/-- Every variable that is looked at is one of a setting. -/
theorem mem_sources_of_overrides {o : Override} (h : o ∈ overrides) :
    ∃ k : Key, o.name ∈ k.sources := by
  rw [overrides_eq] at h
  obtain ⟨⟨name, k⟩, hentry, rfl⟩ := List.mem_map.1 h
  refine ⟨k, ?_⟩
  rw [← Key.lastFirst_overrideTable, lastFirst, List.mem_reverse, List.mem_map]
  exact ⟨(name, k), List.mem_filter.2 ⟨hentry, by simp⟩, rfl⟩

/-- **The environment decides about each setting by the variables of that setting.**  The first of
    them that is set, is a text and is a numeral where a number is wanted gives the value; if there
    is none the setting keeps its value.  No other variable matters, for the settings and for what
    the log says about them, and a second look at the environment changes nothing. -/
theorem decided_by_environment (s : Settings) (env : Environment) :
    let s' := (s.withEnvironment env).1
    (∀ k : Key, s'.get k = (k.sources.findSome? (k.said? env)).getD (s.get k)) ∧
      (∀ (k : Key) (name : String) (v : Value), k.said? env name = some v ↔
        ∃ text, Dictionary.get? name env = some (Utf8.encode text) ∧ k.Spells text v) ∧
      (∀ env' : Environment, (∀ k : Key, ∀ name ∈ k.sources,
          Dictionary.get? name env' = Dictionary.get? name env) →
        s.withEnvironment env' = s.withEnvironment env) ∧
      (s'.withEnvironment env).1 = s' := by
  intro s'
  refine ⟨get_withEnvironment s env, fun k name v => Key.said?_eq_some_iff, ?_, ?_⟩
  · intro env' h
    refine applyAll_congr (fun o ho => ?_) s
    obtain ⟨k, hk⟩ := mem_sources_of_overrides ho
    exact h k o.name hk
  · refine ext_get fun k => ?_
    rw [get_withEnvironment, get_withEnvironment]
    cases k.sources.findSome? (k.said? env) <;> rfl

/-- An older name that is no text and a number that is out of range say nothing; whatever else is
    set changes nothing. -/
theorem decided_by_environment_passed_over :
    let env : Environment := [
      ("ENGINE_MEMORY_LIMIT_BYTES", [0xFF]),
      ("BELUGAS_RUNTIME_MEMORY_LIMIT_BYTES", Utf8.encode "+04194304"),
      ("CONTAINER_TIMEOUT_SECONDS", Utf8.encode "18446744073709551616"),
      ("BELUGAS_RUNTIME_USER", [])]
    let env' : Environment := env ++ [("BELUGAS_RUNTIME_MAX_STDERR_BYTES", Utf8.encode "7")]
    let s : Settings := { container := { timeout := 60 } }
    let s' : Settings := { container := { timeout := 60, memory := 4194304, user := "" } }
    (s.withEnvironment env).1 = s' ∧ s.withEnvironment env' = s.withEnvironment env ∧
      (s'.withEnvironment env).1 = s' := by
  intro env env' s s'
  obtain ⟨hvalues, -, hothers, hagain⟩ := decided_by_environment s env
  -- Key by key: a variable that is no text or out of range is passed over, an empty one is not.
  have hs' : (s.withEnvironment env).1 = s' := by
    refine ext_get fun k => ?_
    rw [hvalues]
    cases k <;> decide +kernel
  refine ⟨hs', hothers env' fun k name hname => ?_, ?_⟩
  · have hown : name ≠ "BELUGAS_RUNTIME_MAX_STDERR_BYTES" := by
      rintro rfl
      revert hname
      cases k <;> decide +kernel
    have hnone : Dictionary.get? name
        [("BELUGAS_RUNTIME_MAX_STDERR_BYTES", Utf8.encode "7")] = none := if_neg (Ne.symm hown)
    rw [Dictionary.get?_append, hnone, Option.or_none]
  · rw [hs'] at hagain
    exact hagain

/-- **Each setting but one follows its namesake.**  Where no older name is set, the variable that
    is named after the section and the field of a setting gives it any value that it can have,
    unless the setting is the number of bytes kept of the error channel: that one stays as it
    is. -/
theorem follows_namesake_iff (s : Settings) (hv : k.Takes v)
    (hset : Dictionary.get? k.namesake env = some (Utf8.encode v.spelling))
    (hlegacy : ∀ name ∈ k.legacy, Dictionary.get? name env = none) :
    (s.withEnvironment env).1.get k = v ↔ k ≠ .errorLimit ∨ s.get k = v := by
  rw [get_withEnvironment]
  by_cases hk : k = .errorLimit
  · subst hk
    simp [Key.sources]
  · have hsilent : k.legacy.findSome? (k.said? env) = none :=
      List.findSome?_eq_none_iff.2 fun name hname => Key.said?_eq_none_of_unset (hlegacy name hname)
    have hsaid : k.sources.findSome? (k.said? env) = some v := by
      rw [Key.sources_of_ne hk, List.findSome?_append, hsilent, List.findSome?_singleton,
        hv.said? hset, Option.none_or]
    simp [hk, hsaid]

/-- A timeout of five minutes. -/
theorem follows_namesake_iff_timeout :
    let env : Environment := [("BELUGAS_RUNTIME_TIMEOUT_SECS", Utf8.encode "300")]
    (({} : Settings).withEnvironment env).1.get .timeout = .number 300 := by
  intro env
  have hv : Key.timeout.Takes (.number 300) := ⟨rfl, by decide⟩
  have hset : Dictionary.get? Key.timeout.namesake env =
      some (Utf8.encode (Value.number 300).spelling) := by decide +kernel
  have hlegacy : ∀ name ∈ Key.timeout.legacy, Dictionary.get? name env = none := by decide +kernel
  exact (follows_namesake_iff {} hv hset hlegacy).2 (.inl nofun)

/-- The number of bytes kept of the error channel does not follow the variable that is named after
    it, though nothing else is set. -/
theorem error_limit_passes_over_namesake :
    let env : Environment := [("BELUGAS_RUNTIME_MAX_STDERR_BYTES", Utf8.encode "1024")]
    Key.errorLimit.namesake = "BELUGAS_RUNTIME_MAX_STDERR_BYTES" ∧
      Key.errorLimit.Takes (.number 1024) ∧ (Value.number 1024).spelling = "1024" ∧
      Key.errorLimit.legacy = [] ∧
      (({} : Settings).withEnvironment env).1.get .errorLimit ≠ .number 1024 := by
  refine ⟨by decide +kernel, ⟨rfl, by decide⟩, by decide +kernel, rfl, by decide +kernel⟩

end Settings
end StackSurvey
