import RecordQuery.Connection.Config

/-!
The configurations that connections have: the defaults for some hosts, with settings made one after the
other. What no setting changes is then as in the defaults, whichever settings were made.
-/

namespace RecordQuery.Config

inductive Configured : Config → Prop
  | initial (hosts : List Host) (space : Option String) : Configured { hosts, space }
  | set {config : Config} (configured : Configured config) (setting : Setting) :
    Configured (config.set setting)

theorem Configured.applyOption {config changed : Config} {key value : String}
    (configured : Configured config) (applied : config.applyOption key value = .ok (some changed)) :
    Configured changed := by
  unfold Config.applyOption at applied
  split at applied
  · cases applied
  · split at applied
    · cases applied
      exact configured.set _
    · cases applied

theorem Configured.applyOptions {config changed : Config} {options : List (String × String)}
    (configured : Configured config) (applied : config.applyOptions options = .ok changed) :
    Configured changed := by
  induction options generalizing config with
  | nil =>
    cases applied
    exact configured
  | cons option rest ih =>
    obtain ⟨key, value⟩ := option
    rw [Config.applyOptions] at applied
    cases first : config.applyOption key value with
    | error error =>
      rw [first] at applied
      cases applied
    | ok result =>
      rw [first] at applied
      refine ih ?_ applied
      cases result with
      | none => exact configured
      | some next => exact configured.applyOption first

/-- Every configuration that a URL and properties describe is one of these. -/
theorem configured_of_parse {url : String} {properties : Fields String} {config : Config}
    (parsed : parse url properties = .ok config) : Configured config := by
  unfold parse at parsed
  cases found : ConnectionUrl.parse url with
  | error error =>
    rw [found] at parsed
    cases parsed
  | ok found' =>
    rw [found] at parsed
    exact (Configured.initial found'.hosts found'.space).applyOptions parsed

/-- Scans and index queries for rows return bins; no setting changes that. -/
theorem Configured.includeBinData {config : Config} (configured : Configured config) :
    config.scan.includeBinData = true ∧ config.query.includeBinData = true := by
  induction configured with
  | initial hosts space => exact ⟨rfl, rfl⟩
  | set configured setting ih => cases setting <;> exact ih

end RecordQuery.Config
