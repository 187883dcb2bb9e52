import HeadUnit.Proofs.Inspector.Lines
import HeadUnit.Proofs.Policy.Verdicts

/-!
# Faults of configurations, and startup

A configuration that validation refuses has a fault; of several faults the first one counts, in the
order of the format, the protocol versions, the frame limit and the rules. With any other
configuration the inspector starts, and runs to the end of its input: nothing that is looked up
again after validation can fail.

## Main definitions

* `Version.IsNumber` — the numbers of supported versions.
* `Config.HasFault` — what is wrong with a configuration.

## Main statements

* `Config.validate_eq_error_iff` — the error is the first fault.
* `Config.validate_eq_ok_iff_and_run` — what validation accepts, and what follows from it.
-/

namespace HeadUnit

/-! ## Version numbers -/

namespace Version

variable {n : UInt8} {v : Version}

/-- The number is that of a supported version. -/
def IsNumber (n : UInt8) : Prop :=
  1 ≤ n ∧ n ≤ 5

theorem isNumber_number (v : Version) : IsNumber v.number := by
  cases v <;> exact ⟨by decide, by decide⟩

theorem isNumber_iff : IsNumber n ↔ ∃ v, number v = n := by
  refine ⟨fun ⟨hone, hfive⟩ => ?_, fun ⟨v, hv⟩ => hv ▸ v.isNumber_number⟩
  have hlow : 1 ≤ n.toNat := UInt8.le_iff_toNat_le.1 hone
  have hhigh : n.toNat ≤ 5 := UInt8.le_iff_toNat_le.1 hfive
  have hcases : n.toNat = 1 ∨ n.toNat = 2 ∨ n.toNat = 3 ∨ n.toNat = 4 ∨ n.toNat = 5 := by
    omega
  obtain h | h | h | h | h := hcases
  · exact ⟨.v1, UInt8.toNat_inj.1 h.symm⟩
  · exact ⟨.v2, UInt8.toNat_inj.1 h.symm⟩
  · exact ⟨.v3, UInt8.toNat_inj.1 h.symm⟩
  · exact ⟨.v4, UInt8.toNat_inj.1 h.symm⟩
  · exact ⟨.v5, UInt8.toNat_inj.1 h.symm⟩

theorem number_of_ofNumber? (h : ofNumber? n = some v) : v.number = n := by
  simpa using List.find?_some h

theorem ofNumber_eq_ok_iff : ofNumber n = .ok v ↔ v.number = n := by
  rw [ofNumber]
  constructor
  · intro h
    cases hfound : ofNumber? n with
    | none => simp [hfound] at h
    | some w =>
      obtain rfl : w = v := by simpa [hfound] using h
      exact number_of_ofNumber? hfound
  · rintro rfl
    rw [ofNumber?_number]

theorem ofNumber_of_not_isNumber (h : ¬ IsNumber n) :
    ofNumber n = .error (.unsupportedVersion n) := by
  rw [ofNumber]
  cases hfound : ofNumber? n with
  | none => rfl
  | some v => exact absurd (isNumber_iff.2 ⟨v, number_of_ofNumber? hfound⟩) h

theorem exists_ofNumber_iff : (∃ v, ofNumber n = .ok v) ↔ IsNumber n := by
  simp only [ofNumber_eq_ok_iff, isNumber_iff]

end Version

namespace Config

variable {c : Config} {e : Error}

/-! ## Faults -/

/-- Both protocol versions are supported, and in order. -/
def VersionsInOrder (c : Config) : Prop :=
  Version.IsNumber c.protocol ∧ Version.IsNumber c.leastProtocol ∧ c.leastProtocol ≤ c.protocol

/-- The frame limit is in its range. -/
def LimitInRange (c : Config) : Prop :=
  256 ≤ c.frameLimit ∧ c.frameLimit ≤ 16777216

/-- What is wrong with a configuration, if nothing else is wrong before it. -/
inductive HasFault (c : Config) : Error → Prop where
  | format (h : c.version ≠ 1) : HasFault c (.badRequest (.configVersion c.version.toNat))
  | protocol (hformat : c.version = 1) (h : ¬ Version.IsNumber c.protocol) :
      HasFault c (.unsupportedVersion c.protocol)
  | leastProtocol (hformat : c.version = 1) (hprotocol : Version.IsNumber c.protocol)
      (h : ¬ Version.IsNumber c.leastProtocol) : HasFault c (.unsupportedVersion c.leastProtocol)
  | reversed (hformat : c.version = 1) (hprotocol : Version.IsNumber c.protocol)
      (hleast : Version.IsNumber c.leastProtocol) (h : c.protocol < c.leastProtocol) :
      HasFault c (.badRequest .versionsReversed)
  | frameLimit (hformat : c.version = 1) (hversions : c.VersionsInOrder)
      (h : ¬ c.LimitInRange) : HasFault c (.badRequest (.frameLimit 256 16777216))
  | rules {e : Error} (hformat : c.version = 1) (hversions : c.VersionsInOrder)
      (hlimit : c.LimitInRange) (h : c.rules = .error e) : HasFault c e

theorem checkProtocol_eq_ok_iff_versionsInOrder :
    c.checkProtocol = .ok () ↔ c.VersionsInOrder := by
  simp only [checkProtocol_eq_ok_iff, protocolVersion, leastProtocolVersion,
    Version.ofNumber_eq_ok_iff]
  constructor
  · rintro ⟨version, least, hversion, hleast, hle⟩
    rw [hversion, hleast] at hle
    exact ⟨Version.isNumber_iff.2 ⟨version, hversion⟩, Version.isNumber_iff.2 ⟨least, hleast⟩, hle⟩
  · rintro ⟨hprotocol, hleastProtocol, hle⟩
    obtain ⟨version, hversion⟩ := Version.isNumber_iff.1 hprotocol
    obtain ⟨least, hleast⟩ := Version.isNumber_iff.1 hleastProtocol
    exact ⟨version, least, hversion, hleast, by rwa [hversion, hleast]⟩

theorem exists_rules_iff : (∃ rules, c.rules = .ok rules) ↔
    ∀ text ∈ c.allow, ∃ rule, Rule.ofText text = .ok rule :=
  Allowlist.exists_ofTexts_iff

theorem valid_iff : c.Valid ↔ c.version = 1 ∧ c.VersionsInOrder ∧ c.LimitInRange ∧
    ∀ text ∈ c.allow, ∃ rule, Rule.ofText text = .ok rule := by
  rw [← checkProtocol_eq_ok_iff_versionsInOrder, ← exists_rules_iff, checkProtocol_eq_ok_iff]
  exact ⟨fun h => ⟨h.format, h.versions, ⟨h.leastFrameLimit_le, h.frameLimit_le⟩, h.rules⟩,
    fun ⟨hformat, hversions, ⟨hleast, hgreatest⟩, hrules⟩ =>
      ⟨hformat, hversions, hleast, hgreatest, hrules⟩⟩

theorem validate_of_hasFault (h : c.HasFault e) : c.validate = .error e := by
  cases h with
  | format h =>
    have hcheck : c.checkFormat = .error (.badRequest (.configVersion c.version.toNat)) := if_neg h
    rw [validate, hcheck]
    rfl
  | protocol hformat h =>
    rw [validate, checkFormat_eq_ok_iff.2 hformat, checkProtocol, protocolVersion,
      Version.ofNumber_of_not_isNumber h]
    rfl
  | leastProtocol hformat hprotocol h =>
    obtain ⟨version, hversion⟩ := Version.exists_ofNumber_iff.2 hprotocol
    rw [validate, checkFormat_eq_ok_iff.2 hformat, checkProtocol, protocolVersion, hversion,
      leastProtocolVersion, Version.ofNumber_of_not_isNumber h]
    rfl
  | reversed hformat hprotocol hleast h =>
    obtain ⟨version, hversion⟩ := Version.isNumber_iff.1 hprotocol
    obtain ⟨least, hleast⟩ := Version.isNumber_iff.1 hleast
    rw [validate, checkFormat_eq_ok_iff.2 hformat, checkProtocol, protocolVersion,
      Version.ofNumber_eq_ok_iff.2 hversion, leastProtocolVersion,
      Version.ofNumber_eq_ok_iff.2 hleast]
    rw [← hversion, ← hleast] at h
    simp [h, bind, Except.bind]
  | frameLimit hformat hversions h =>
    have hcheck : c.checkFrameLimit = .error (.badRequest (.frameLimit 256 16777216)) := if_neg h
    rw [validate, checkFormat_eq_ok_iff.2 hformat,
      checkProtocol_eq_ok_iff_versionsInOrder.2 hversions, hcheck]
    rfl
  | rules hformat hversions hlimit h =>
    rw [validate, checkFormat_eq_ok_iff.2 hformat,
      checkProtocol_eq_ok_iff_versionsInOrder.2 hversions, checkFrameLimit_eq_ok_iff.2 hlimit, h]
    rfl

theorem valid_or_hasFault (c : Config) : c.Valid ∨ ∃ e, c.HasFault e := by
  by_cases hformat : c.version = 1
  case neg => exact .inr ⟨_, .format hformat⟩
  by_cases hprotocol : Version.IsNumber c.protocol
  case neg => exact .inr ⟨_, .protocol hformat hprotocol⟩
  by_cases hleast : Version.IsNumber c.leastProtocol
  case neg => exact .inr ⟨_, .leastProtocol hformat hprotocol hleast⟩
  by_cases hle : c.leastProtocol ≤ c.protocol
  case neg => exact .inr ⟨_, .reversed hformat hprotocol hleast (UInt8.not_le.1 hle)⟩
  have hversions : c.VersionsInOrder := ⟨hprotocol, hleast, hle⟩
  by_cases hlimit : c.LimitInRange
  case neg => exact .inr ⟨_, .frameLimit hformat hversions hlimit⟩
  cases hrules : c.rules with
  | error e => exact .inr ⟨e, .rules hformat hversions hlimit hrules⟩
  | ok rules =>
    exact .inl (valid_iff.2 ⟨hformat, hversions, hlimit, exists_rules_iff.1 ⟨rules, hrules⟩⟩)

/-- The error of a configuration is its first fault. -/
theorem validate_eq_error_iff : c.validate = .error e ↔ c.HasFault e := by
  refine ⟨fun h => ?_, validate_of_hasFault⟩
  obtain hvalid | ⟨other, hother⟩ := c.valid_or_hasFault
  · cases h.symm.trans (validate_eq_ok_iff.2 hvalid)
  · obtain rfl := Except.error.inj (h.symm.trans (validate_of_hasFault hother))
    exact hother

/-- Faults are unsupported versions and bad requests. -/
theorem HasFault.unsupported_or_badRequest (h : c.HasFault e) :
    (∃ n, e = .unsupportedVersion n) ∨ ∃ fault, e = .badRequest fault := by
  cases h with
  | protocol | leastProtocol => exact .inl ⟨_, rfl⟩
  | format | reversed | frameLimit => exact .inr ⟨_, rfl⟩
  | rules _ _ _ h => exact .inr (Allowlist.exists_of_ofTexts_eq_error h)

theorem exists_hasFault_unsupportedVersion_iff : (∃ n, c.HasFault (.unsupportedVersion n)) ↔
    c.version = 1 ∧ (¬ Version.IsNumber c.protocol ∨ ¬ Version.IsNumber c.leastProtocol) := by
  constructor
  · rintro ⟨n, h⟩
    cases h with
    | protocol hformat h => exact ⟨hformat, .inl h⟩
    | leastProtocol hformat hprotocol h => exact ⟨hformat, .inr h⟩
    | rules _ _ _ h =>
      obtain ⟨fault, hfault⟩ := Allowlist.exists_of_ofTexts_eq_error h
      cases hfault
  · rintro ⟨hformat, h⟩
    by_cases hprotocol : Version.IsNumber c.protocol
    · exact ⟨_, .leastProtocol hformat hprotocol (h.resolve_left (not_not_intro hprotocol))⟩
    · exact ⟨_, .protocol hformat hprotocol⟩

/-! ## Startup -/

/-- With a configuration that loads, the inspector runs to the end of every input. -/
theorem exists_run_of_ofSource {source : Except SourceFault String} (h : ofSource source = .ok c)
    (path : String) (input : List UInt8) : ∃ t, Inspector.run path source input = .ok t := by
  cases source with
  | error fault => cases h
  | ok text =>
    obtain ⟨s, hs, -, -⟩ := (Valid.of_ofText h).exists_ofConfig
    obtain ⟨t, ht, -⟩ := Inspector.exists_run h hs path input
    exact ⟨t, ht⟩

/-- A configuration is accepted exactly if its format is the known one, both protocol versions are
supported and in order, the frame limit is between 256 bytes and sixteen mebibytes, and each text is
a rule. It is refused for an unsupported version exactly if it has the known format and one of the
versions is not supported, and otherwise as a bad request. With an accepted one the versions are
found in order, the policy and the tables are in order too, and so the session starts; and with
a configuration that loads, the inspector runs to the end of every input. -/
theorem validate_eq_ok_iff_and_run (c : Config) :
    (c.validate = .ok () ↔ c.version = 1 ∧
      ((1 ≤ c.protocol ∧ c.protocol ≤ 5) ∧ (1 ≤ c.leastProtocol ∧ c.leastProtocol ≤ 5) ∧
        c.leastProtocol ≤ c.protocol) ∧
      (256 ≤ c.frameLimit ∧ c.frameLimit ≤ 16777216) ∧
      ∀ text ∈ c.allow, ∃ rule, Rule.ofText text = .ok rule) ∧
    ((∃ n, c.validate = .error (.unsupportedVersion n)) ↔ c.version = 1 ∧
      (¬ (1 ≤ c.protocol ∧ c.protocol ≤ 5) ∨ ¬ (1 ≤ c.leastProtocol ∧ c.leastProtocol ≤ 5))) ∧
    (c.validate = .ok () ∨ (∃ n, c.validate = .error (.unsupportedVersion n)) ∨
      ∃ fault, c.validate = .error (.badRequest fault)) ∧
    (c.validate = .ok () → Catalog.validate = .ok () ∧ ∃ version least policy,
      c.protocolVersion = .ok version ∧ c.leastProtocolVersion = .ok least ∧
      least.number ≤ version.number ∧ Policy.ofConfig c = .ok policy ∧
      Inspector.Session.ofConfig c = .ok ⟨policy, version⟩) ∧
    ∀ source, ofSource source = .ok c → ∀ path input, ∃ t,
      Inspector.run path source input = .ok t := by
  refine ⟨validate_eq_ok_iff.trans valid_iff, ?_, ?_, fun hok => ?_,
    fun source hsource => exists_run_of_ofSource hsource⟩
  · simp only [validate_eq_error_iff]
    exact exists_hasFault_unsupportedVersion_iff
  · obtain hvalid | ⟨e, hfault⟩ := c.valid_or_hasFault
    · exact .inl (validate_eq_ok_iff.2 hvalid)
    · obtain ⟨n, rfl⟩ | ⟨fault, rfl⟩ := hfault.unsupported_or_badRequest
      · exact .inr (.inl ⟨n, validate_of_hasFault hfault⟩)
      · exact .inr (.inr ⟨fault, validate_of_hasFault hfault⟩)
  · have hvalid := validate_eq_ok_iff.1 hok
    obtain ⟨version, least, hversion, hleast, hle⟩ := hvalid.versions
    obtain ⟨s, hs, hpolicy, hsession⟩ := hvalid.exists_ofConfig
    obtain rfl := Except.ok.inj (hversion.symm.trans hsession)
    exact ⟨Catalog.validate_catalog, _, least, _, hversion, hleast, hle, hpolicy, hs⟩

/-- A configuration that lets everything in loads, and the inspector runs. One with an unsupported
version is refused for it, whatever else is wrong; one with its versions reversed is a bad
request. -/
theorem validate_eq_ok_iff_and_run_openConfig :
    let unsupported : Config := ⟨1, 3, 6, 0, ["*"]⟩
    let reversed : Config := ⟨1, 2, 3, 256, []⟩
    Inspector.openConfig.validate = .ok () ∧
      (∃ s, Inspector.Session.ofConfig Inspector.openConfig = .ok s) ∧
      ofSource (.ok Inspector.openConfigText) = .ok Inspector.openConfig ∧
      (∃ t, Inspector.run "sdlrpc.yaml" (.ok Inspector.openConfigText) [0xff] = .ok t) ∧
      (∃ n, unsupported.validate = .error (.unsupportedVersion n)) ∧
      ∃ fault, reversed.validate = .error (.badRequest fault) := by
  intro unsupported reversed
  obtain ⟨-, -, -, hstart, hrun⟩ := validate_eq_ok_iff_and_run Inspector.openConfig
  obtain ⟨-, hunsupported, -⟩ := validate_eq_ok_iff_and_run unsupported
  obtain ⟨hvalid, hversion, hcases, -⟩ := validate_eq_ok_iff_and_run reversed
  have hok : Inspector.openConfig.validate = .ok () := rfl
  have hsource : ofSource (.ok Inspector.openConfigText) = .ok Inspector.openConfig :=
    Inspector.ofText_openConfigText
  obtain ⟨-, _, _, _, -, -, -, -, hsession⟩ := hstart hok
  refine ⟨hok, ⟨_, hsession⟩, hsource, hrun _ hsource _ _, ?_, ?_⟩
  · exact hunsupported.2 ⟨rfl, .inr (by decide)⟩
  · refine (hcases.resolve_left fun h => ?_).resolve_left fun h => ?_
    · exact absurd (hvalid.1 h).2.1.2.2 (by decide)
    · exact absurd (hversion.1 h).2 (by decide)

end Config

end HeadUnit
