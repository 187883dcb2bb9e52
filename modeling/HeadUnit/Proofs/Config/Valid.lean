import HeadUnit.Inspector.Session
import HeadUnit.Proofs.Catalog.Tables
import HeadUnit.Proofs.Policy.Rules

/-!
# Valid configurations

Validation accepts exactly the configurations whose parts can be used: the protocol versions are
supported and in order, the frame limit is in its range, and the rules read. A session starts with
every configuration that has been read.

## Main definitions

* `Config.Valid` — what validation accepts.

## Main statements

* `Config.validate_eq_ok_iff` — validation accepts exactly the valid configurations.
* `Config.Valid.exists_ofConfig` — a session starts with a valid configuration.
-/

namespace HeadUnit

namespace Config

variable {c : Config} {text : String}

/-- The format is known, and each part can be used. -/
structure Valid (c : Config) : Prop where
  format : c.version = formatVersion
  versions : ∃ version least, c.protocolVersion = .ok version ∧
    c.leastProtocolVersion = .ok least ∧ least.number ≤ version.number
  leastFrameLimit_le : leastFrameLimit ≤ c.frameLimit
  frameLimit_le : c.frameLimit ≤ greatestFrameLimit
  rules : ∃ rules, c.rules = .ok rules

/-! ## Validation -/

theorem checkFormat_eq_ok_iff : c.checkFormat = .ok () ↔ c.version = formatVersion := by
  by_cases h : c.version = formatVersion <;> simp [checkFormat, h]

theorem checkProtocol_eq_ok_iff :
    c.checkProtocol = .ok () ↔ ∃ version least, c.protocolVersion = .ok version ∧
      c.leastProtocolVersion = .ok least ∧ least.number ≤ version.number := by
  rw [checkProtocol]
  cases c.protocolVersion with
  | error e => simp [bind, Except.bind]
  | ok version =>
    cases c.leastProtocolVersion with
    | error e => simp [bind, Except.bind]
    | ok least =>
      by_cases h : version.number < least.number
      · simp [bind, Except.bind, h]
      · simpa [bind, Except.bind, pure, Except.pure, h] using UInt8.not_lt.1 h

theorem checkFrameLimit_eq_ok_iff :
    c.checkFrameLimit = .ok () ↔
      leastFrameLimit ≤ c.frameLimit ∧ c.frameLimit ≤ greatestFrameLimit := by
  by_cases h : leastFrameLimit ≤ c.frameLimit ∧ c.frameLimit ≤ greatestFrameLimit <;>
    simp [checkFrameLimit, h]

theorem validate_eq_ok_iff : c.validate = .ok () ↔ c.Valid := by
  have hrules : (do let _ ← c.rules : Except Error Unit) = .ok () ↔
      ∃ rules, c.rules = .ok rules := by
    cases c.rules <;> simp [bind, Except.bind, pure, Except.pure]
  rw [validate, Except.bind_eq_ok_iff, Except.bind_eq_ok_iff, Except.bind_eq_ok_iff, hrules,
    checkFormat_eq_ok_iff, checkProtocol_eq_ok_iff, checkFrameLimit_eq_ok_iff]
  constructor
  · rintro ⟨hformat, hversions, ⟨hleast, hgreatest⟩, hrules⟩
    exact ⟨hformat, hversions, hleast, hgreatest, hrules⟩
  · rintro ⟨hformat, hversions, hleast, hgreatest, hrules⟩
    exact ⟨hformat, hversions, ⟨hleast, hgreatest⟩, hrules⟩

/-- A configuration that has been read is valid. -/
theorem Valid.of_ofText (h : ofText text = .ok c) : c.Valid := by
  rw [ofText] at h
  cases hread : (Yaml.document? text).bind ofDocument? with
  | none => simp [hread] at h
  | some config =>
    cases hvalid : config.validate with
    | error e => simp [hread, hvalid, Except.map] at h
    | ok _ =>
      obtain rfl : config = c := by simpa [hread, hvalid, Except.map] using h
      exact validate_eq_ok_iff.1 hvalid

/-! ## Startup -/

/-- A session starts with a valid configuration, with its policy and protocol version. -/
theorem Valid.exists_ofConfig (h : c.Valid) :
    ∃ s : Inspector.Session, Inspector.Session.ofConfig c = .ok s ∧
      Policy.ofConfig c = .ok s.policy ∧ c.protocolVersion = .ok s.version := by
  obtain ⟨version, -, hversion, -⟩ := h.versions
  obtain ⟨rules, hrules⟩ := h.rules
  have hpolicy := Policy.ofConfig_eq_ok_iff.2 ⟨rules, hrules, rfl⟩
  refine ⟨⟨⟨c.frameLimit, rules⟩, version⟩, ?_, hpolicy, hversion⟩
  rw [Inspector.Session.ofConfig, Catalog.validate_catalog, hversion, hpolicy]
  rfl

theorem Valid.leastFrameLimit_le_policy {p : Policy} (h : c.Valid)
    (hpolicy : Policy.ofConfig c = .ok p) : Config.leastFrameLimit ≤ p.frameLimit := by
  rw [Policy.frameLimit_of_ofConfig hpolicy]
  exact h.leastFrameLimit_le

end Config

end HeadUnit
