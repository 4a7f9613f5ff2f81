import Docbase.Proofs.Fields
import Docbase.Settings

/-!
# Settings that are named

What a caller names is put over what the environment holds, so it does not matter which value the
variable of a named setting has. It does matter whether the port can be read, which is looked at
before any setting is replaced.

* `Settings.override_congr`: settings that agree on what is not named become equal.
* `Settings.ofEnvironment_same_iff` says when two environments give the same settings.
-/

namespace Docbase.Settings

variable {settings other : Settings} {named : Document} {env env' : String → Option String}

/-! ## Settings by their names -/

def get? (settings : Settings) : String → Option Value
  | "store_type" => some settings.kind
  | "host" => some settings.host
  | "port" => some settings.portNumber
  | "database" => some settings.database
  | "username" => some settings.username
  | "password" => some settings.password
  | "client_options" => some settings.options
  | _ => none

theorem ext_get? (same : ∀ name, settings.get? name = other.get? name) : settings = other := by
  cases settings
  cases other
  simpa [get?] using And.intro (same "store_type") <| And.intro (same "host") <|
    And.intro (same "port") <| And.intro (same "database") <| And.intro (same "username") <|
    And.intro (same "password") (same "client_options")

theorem set?_eq_none_iff {name : String} {v : Value} :
    settings.set? name v = none ↔ settings.get? name = none := by
  unfold set? get?
  split <;> simp

theorem get?_eq_none_iff {name : String} :
    settings.get? name = none ↔ other.get? name = none := by
  unfold get?
  split <;> simp

theorem set?_known {name : String} {v : Value} :
    settings.set? name v = none ↔ other.set? name v = none := by
  rw [set?_eq_none_iff, set?_eq_none_iff, get?_eq_none_iff]

theorem get?_set? {name : String} {v : Value} (h : settings.set? name v = some other)
    (setting : String) :
    other.get? setting = if setting = name then some v else settings.get? setting := by
  unfold set? at h
  split at h
  case h_8 => cases h
  all_goals
    obtain rfl := Option.some.inj h
    unfold get?
    split <;> simp_all

/-- Settings that agree on what is not named become equal. -/
theorem override_congr
    (agree : ∀ setting, Fields.has setting named = false →
      settings.get? setting = other.get? setting) :
    settings.override named = other.override named := by
  induction named generalizing settings other with
  | nil =>
    have same : settings = other := ext_get? fun setting => agree setting rfl
    rw [same]
  | cons field rest ih =>
    obtain ⟨name, v⟩ := field
    simp only [override]
    cases replaced : settings.set? name v with
    | none => rw [set?_known.1 replaced]
    | some t =>
      cases replaced' : other.set? name v with
      | none => simp [set?_known.1 replaced'] at replaced
      | some t' =>
        refine ih fun setting absent => ?_
        rw [get?_set? replaced, get?_set? replaced']
        by_cases h : setting = name
        · rw [if_pos h, if_pos h]
        · rw [if_neg h, if_neg h]
          refine agree setting ?_
          simpa [Fields.has, List.lookup_cons, beq_false_of_ne h] using absent

theorem override_error {failure : Failure} (h : settings.override named = .error failure) :
    failure = .misuse .wrongType := by
  induction named generalizing settings with
  | nil => simp [override] at h
  | cons field rest ih =>
    simp only [override] at h
    split at h
    · exact ih h
    · exact (Except.error.inj h).symm

/-! ## Settings from variables -/

def sources : List (String × String) :=
  [("store_type", "DOCUMENT_STORE_TYPE"), ("host", "DOCUMENT_DATABASE_HOST"),
    ("port", "DOCUMENT_DATABASE_PORT"), ("database", "DOCUMENT_DATABASE_NAME"),
    ("username", "DOCUMENT_DATABASE_USER"), ("password", "DOCUMENT_DATABASE_PASSWORD")]

theorem sources_distinct : ∀ a ∈ sources, ∀ b ∈ sources, a.2 = b.2 → a = b := by
  decide

theorem setting_of_source {setting setting' source : String}
    (h : sources.lookup setting = some source) (h' : sources.lookup setting' = some source) :
    setting = setting' :=
  congrArg Prod.fst <|
    sources_distinct _ (Fields.mem_of_lookup h) _ (Fields.mem_of_lookup h') rfl

/-- What the environment gives for the port, if that is not a number. -/
def unreadablePort (env : String → Option String) : Option String :=
  let digits := (env "DOCUMENT_DATABASE_PORT").getD "27017"
  if (Text.readInt? digits).isNone then some digits else none

theorem ofVariables_of_unreadable {digits : String} (h : unreadablePort env = some digits) :
    ofVariables env = .error (.portText digits) := by
  simp only [unreadablePort, Option.ite_none_right_eq_some, Option.isNone_iff_eq_none,
    Option.some.injEq] at h
  obtain ⟨unread, rfl⟩ := h
  simp only [ofVariables, unread]
  rfl

theorem ofVariables_agree (readable : unreadablePort env = none)
    (readable' : unreadablePort env' = none) :
    ∃ settings other, ofVariables env = .ok settings ∧ ofVariables env' = .ok other ∧
      ∀ setting, (∀ source ∈ sources.lookup setting, env source = env' source) →
        settings.get? setting = other.get? setting := by
  simp only [unreadablePort, ite_eq_right_iff, reduceCtorEq, imp_false,
    Option.isNone_iff_eq_none] at readable readable'
  obtain ⟨number, read⟩ := Option.ne_none_iff_exists'.1 readable
  obtain ⟨number', read'⟩ := Option.ne_none_iff_exists'.1 readable'
  simp only [ofVariables, read, read']
  refine ⟨_, _, rfl, rfl, fun setting same => ?_⟩
  unfold get?
  split
  all_goals simp_all [sources, List.lookup_cons]

theorem ofEnvironment_of_unreadable {digits : String} (h : unreadablePort env = some digits) :
    ofEnvironment env named = .error (.argument (.portText digits)) := by
  rw [ofEnvironment, ofVariables_of_unreadable h]
  rfl

theorem ofEnvironment_of_read (h : ofVariables env = .ok settings) :
    ofEnvironment env named = settings.override named := by
  rw [ofEnvironment, h]
  rfl

/-! ## Two environments -/

/-- The environments hold the same, but for the variables of settings that are named. -/
def DifferOnly (named : Document) (env env' : String → Option String) : Prop :=
  ∀ source, env source ≠ env' source →
    ∃ setting, sources.lookup setting = some source ∧ Fields.has setting named = true

theorem DifferOnly.same (differ : DifferOnly named env env') {setting source : String}
    (unnamed : Fields.has setting named = false) (h : sources.lookup setting = some source) :
    env source = env' source := by
  by_contra distinct
  obtain ⟨setting', h', isNamed⟩ := differ source distinct
  rw [setting_of_source h h', isNamed] at unnamed
  cases unnamed

theorem ofEnvironment_of_readable (differ : DifferOnly named env env')
    (readable : unreadablePort env = none) (readable' : unreadablePort env' = none) :
    ofEnvironment env named = ofEnvironment env' named := by
  obtain ⟨settings, other, read, read', agree⟩ := ofVariables_agree readable readable'
  rw [ofEnvironment_of_read read, ofEnvironment_of_read read']
  exact override_congr fun setting unnamed =>
    agree setting fun source h => differ.same unnamed h

theorem ofEnvironment_ne_portText (readable : unreadablePort env = none) (digits : String) :
    ofEnvironment env named ≠ .error (.argument (.portText digits)) := by
  intro h
  obtain ⟨settings, -, read, -⟩ := ofVariables_agree readable readable
  rw [ofEnvironment_of_read read] at h
  cases override_error h

/-- Whatever the variables of named settings hold, the outcome is the same, settings or failure,
unless one of the environments holds a port that is not a number. That is reported even when the
caller names the port. -/
theorem ofEnvironment_same_iff (differ : DifferOnly named env env') :
    ofEnvironment env named = ofEnvironment env' named ↔
      unreadablePort env = unreadablePort env' := by
  rcases port : unreadablePort env with _ | digits <;>
    rcases port' : unreadablePort env' with _ | digits'
  · simpa using ofEnvironment_of_readable differ port port'
  · rw [ofEnvironment_of_unreadable port']
    simpa using ofEnvironment_ne_portText port digits'
  · rw [ofEnvironment_of_unreadable port]
    simpa using (ofEnvironment_ne_portText port' digits).symm
  · rw [ofEnvironment_of_unreadable port, ofEnvironment_of_unreadable port']
    simp

def onlyHolding (source text : String) : String → Option String := fun name =>
  if name = source then some text else none

theorem differOnly_onlyHolding (setting text : String) {source : String}
    (h : sources.lookup setting = some source) (isNamed : Fields.has setting named = true) :
    DifferOnly named (onlyHolding source text) fun _ => none := by
  intro name distinct
  have same : name = source := by
    by_contra ne
    exact distinct (if_neg ne)
  exact ⟨setting, same ▸ h, isNamed⟩

theorem named_host_hides_variable :
    DifferOnly [("host", .str "db")] (onlyHolding "DOCUMENT_DATABASE_HOST" "elsewhere")
      (fun _ => none) ∧
    ofEnvironment (onlyHolding "DOCUMENT_DATABASE_HOST" "elsewhere") [("host", .str "db")] =
      ofEnvironment (fun _ => none) [("host", .str "db")] :=
  have differ : DifferOnly [("host", .str "db")] _ _ :=
    differOnly_onlyHolding "host" "elsewhere" rfl rfl
  ⟨differ, (ofEnvironment_same_iff differ).2 rfl⟩

/-- A port that is named does not hide what the environment holds for it. -/
theorem named_port_shows_variable :
    ¬ ∀ (named : Document) (env env' : String → Option String), DifferOnly named env env' →
      ofEnvironment env named = ofEnvironment env' named := by
  intro hidden
  have same := hidden [("port", .int 27017)] (onlyHolding "DOCUMENT_DATABASE_PORT" "none")
    (fun _ => none) (differOnly_onlyHolding "port" "none" rfl rfl)
  have unread : unreadablePort (onlyHolding "DOCUMENT_DATABASE_PORT" "none") = some "none" := rfl
  rw [ofEnvironment_of_unreadable unread] at same
  exact ofEnvironment_ne_portText rfl "none" same.symm

end Docbase.Settings
