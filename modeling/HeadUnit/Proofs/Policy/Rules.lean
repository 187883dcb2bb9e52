import HeadUnit.Policy
import Mathlib.Data.List.TakeWhile

/-!
# What rules cover

The text of a rule says which messages the rule lets in: the kind or `*` stands before its first
colon, the function or `*` after it. A compiled allowlist lets in exactly what one of its texts
covers, and a policy keeps out the rest.

## Main definitions

* `Rule.Covers` — what the text of a rule says.

## Main statements

* `Rule.ofText_eq_ok_iff` — which texts are rules.
* `Allowlist.allows_iff_exists_covers` — a compiled allowlist does what its texts say.
* `Policy.checkMessage_ofConfig` — the verdict on a message by the texts of the configuration.
-/

namespace HeadUnit

variable {text a b : String} {kind : MessageKind} {function : String}

/-! ## Kinds -/

namespace MessageKind

theorem tag_ne_star (kind : MessageKind) : kind.tag ≠ "*" := by
  cases kind <;> decide

theorem colon_notMem_tag (kind : MessageKind) : ':' ∉ kind.tag.toList := by
  cases kind <;> decide

end MessageKind

/-! ## One rule -/

namespace Rule

/-- The text says that messages of the kind may call the function. -/
def Covers (text : String) (kind : MessageKind) (function : String) : Prop :=
  ∃ a b, text = a ++ ":" ++ b ∧ (a = "*" ∨ a = kind.tag) ∧ (b = "*" ∨ b = function)

/-- What admits a kind has no colon. -/
theorem colon_notMem_of_admits (h : a = "*" ∨ a = kind.tag) : ':' ∉ a.toList := by
  obtain rfl | rfl := h
  · decide
  · exact kind.colon_notMem_tag

/-- A text is split at its first colon: the part before it has none. -/
theorem split?_eq_some_iff :
    split? text = some (a, b) ↔ text = a ++ ":" ++ b ∧ ':' ∉ a.toList := by
  have hspan := List.takeWhile_append_dropWhile (p := (· != ':')) (l := text.toList)
  have hbefore : ':' ∉ text.toList.takeWhile (· != ':') := fun hmem => by
    simpa using List.mem_takeWhile_imp hmem
  constructor
  · intro h
    rw [split?] at h
    cases hafter : text.toList.dropWhile (· != ':') with
    | nil => simp [hafter] at h
    | cons c after =>
      have hcolon : c = ':' := by
        simpa [hafter] using List.head?_dropWhile_not (· != ':') text.toList
      obtain ⟨rfl, rfl⟩ : String.ofList (text.toList.takeWhile (· != ':')) = a ∧
          String.ofList after = b := by simpa [hafter] using h
      refine ⟨String.toList_inj.1 ?_, by simpa using hbefore⟩
      rw [hafter, hcolon] at hspan
      simpa using hspan.symm
  · rintro ⟨rfl, hcolon⟩
    have hne : ∀ c ∈ a.toList, (c != ':') = true := fun c hc => by
      refine bne_iff_ne.2 fun heq => hcolon ?_
      exact heq ▸ hc
    simp [split?, List.takeWhile_append_of_pos hne, List.dropWhile_append_of_pos hne]

theorem readKind_eq_ok_iff {admitted : Option MessageKind} :
    readKind a = .ok admitted ↔
      a = "*" ∧ admitted = none ∨ ∃ kind, a = MessageKind.tag kind ∧ admitted = some kind := by
  by_cases hstar : a = "*"
  · have htag : ∀ kind, "*" ≠ MessageKind.tag kind := fun kind h => kind.tag_ne_star h.symm
    simp [readKind, hstar, htag, eq_comm]
  · rw [readKind, if_neg hstar]
    cases hkind : MessageKind.ofTag? a with
    | some kind =>
      obtain rfl := MessageKind.ofTag?_eq_some_iff.1 hkind
      simp [hstar, MessageKind.tag_inj, eq_comm]
    | none =>
      have hne : ∀ kind, a ≠ MessageKind.tag kind := fun kind h => by
        simp [MessageKind.ofTag?_eq_some_iff.2 h] at hkind
      simp [hstar, hne]

/-- The texts of rules, and the rules that they are read as. -/
theorem ofText_eq_ok_iff {rule : Rule} :
    ofText text = .ok rule ↔
      ∃ a b admitted, split? text = some (a, b) ∧ readKind a = .ok admitted ∧ b ≠ "" ∧
        rule = ⟨admitted, if b = "*" then none else some b⟩ := by
  rw [ofText]
  constructor
  · intro h
    cases hsplit : split? text with
    | none => simp [hsplit] at h
    | some parts =>
      obtain ⟨a, b⟩ := parts
      cases hkind : readKind a with
      | error e => simp [hsplit, hkind, bind, Except.bind] at h
      | ok admitted =>
        by_cases hempty : b = ""
        · simp [hsplit, hkind, hempty, bind, Except.bind] at h
        · refine ⟨a, b, admitted, rfl, hkind, hempty, ?_⟩
          simpa [hsplit, hkind, hempty, bind, Except.bind] using h.symm
  · rintro ⟨a, b, admitted, hsplit, hkind, hempty, rfl⟩
    simp [hsplit, hkind, hempty, bind, Except.bind]

/-- A rule does what its text says. -/
theorem allows_iff_covers {rule : Rule} (h : ofText text = .ok rule) :
    rule.allows kind function = true ↔ Covers text kind function := by
  obtain ⟨a, b, admitted, hsplit, hkind, -, rfl⟩ := ofText_eq_ok_iff.1 h
  have hbefore : admitted.all (· == kind) = true ↔ a = "*" ∨ a = kind.tag := by
    obtain ⟨rfl, rfl⟩ | ⟨named, rfl, rfl⟩ := readKind_eq_ok_iff.1 hkind
    · simp
    · simp [MessageKind.tag_ne_star, MessageKind.tag_inj]
  have hafter : (if b = "*" then none else some b).all (· == function) = true ↔
      b = "*" ∨ b = function := by
    by_cases hstar : b = "*" <;> simp [hstar]
  rw [allows, Bool.and_eq_true, hbefore, hafter]
  constructor
  · rintro ⟨ha, hb⟩
    exact ⟨a, b, (split?_eq_some_iff.1 hsplit).1, ha, hb⟩
  · rintro ⟨a', b', htext, ha', hb'⟩
    -- What stands before the colon has none itself, so the text is split there.
    have hparts := hsplit.symm.trans (split?_eq_some_iff.2 ⟨htext, colon_notMem_of_admits ha'⟩)
    obtain ⟨rfl, rfl⟩ := Prod.mk.inj (Option.some.inj hparts)
    exact ⟨ha', hb'⟩

end Rule

/-! ## Allowlists -/

namespace Allowlist

theorem ofTexts_cons_eq_ok_iff {texts : List String} {rules : Allowlist} :
    ofTexts (text :: texts) = .ok rules ↔
      ∃ rule rest, Rule.ofText text = .ok rule ∧ ofTexts texts = .ok rest ∧
        rules = rule :: rest := by
  rw [ofTexts, List.mapM_cons]
  change _ ↔ ∃ rule rest, _ ∧ List.mapM Rule.ofText texts = .ok rest ∧ _
  cases Rule.ofText text with
  | error e => simp [bind, Except.bind]
  | ok rule =>
    cases List.mapM Rule.ofText texts with
    | error e => simp [bind, Except.bind]
    | ok rest => simp [bind, Except.bind, pure, Except.pure, eq_comm]

/-- A compiled allowlist does what its texts say. -/
theorem allows_iff_exists_covers {texts : List String} {rules : Allowlist}
    (h : ofTexts texts = .ok rules) :
    rules.allows kind function = true ↔ ∃ text ∈ texts, Rule.Covers text kind function := by
  induction texts generalizing rules with
  | nil =>
    obtain rfl : rules = [] := (Except.ok.inj h).symm
    simp [allows]
  | cons text rest ih =>
    obtain ⟨rule, rules, hrule, hrules, rfl⟩ := ofTexts_cons_eq_ok_iff.1 h
    simp only [List.mem_cons, exists_eq_or_imp, ← Rule.allows_iff_covers hrule, ← ih hrules]
    simp [allows]

end Allowlist

/-! ## Policies -/

namespace Policy

variable {c : Config} {p : Policy}

theorem checkMessage_eq_none_iff :
    p.checkMessage kind function = none ↔ p.rules.allows kind function = true := by
  rw [checkMessage]
  cases hrules : p.rules with
  | nil => simp [Allowlist.allows]
  | cons rule rest => simp

theorem checkLength_eq_none_iff {length : Nat} :
    p.checkLength length = none ↔ length ≤ p.frameLimit := by
  simp [checkLength]

theorem ofConfig_eq_ok_iff :
    ofConfig c = .ok p ↔ ∃ rules, c.rules = .ok rules ∧ p = ⟨c.frameLimit, rules⟩ := by
  rw [ofConfig]
  cases c.rules <;> simp [bind, Except.bind, eq_comm]

theorem frameLimit_of_ofConfig (h : ofConfig c = .ok p) : p.frameLimit = c.frameLimit := by
  obtain ⟨rules, -, rfl⟩ := ofConfig_eq_ok_iff.1 h
  rfl

/-- A message is let in if the text of a rule covers it. -/
theorem checkMessage_ofConfig (h : ofConfig c = .ok p) :
    p.checkMessage kind function = none ↔
      ∃ text ∈ c.allow, Rule.Covers text kind function := by
  obtain ⟨rules, hrules, rfl⟩ := ofConfig_eq_ok_iff.1 h
  exact checkMessage_eq_none_iff.trans (Allowlist.allows_iff_exists_covers hrules)

end Policy

end HeadUnit
