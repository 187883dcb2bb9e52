import HeadUnit.Proofs.Policy.Rules

/-!
# Which texts are allowlists, and what they let in

A text is a rule by what stands before and after its first colon. A list of texts is an allowlist
if each of them is a rule, and the first one that is none gives the error. Of an allowlist only its
members count: neither their order nor repetitions change a verdict, and further members let in
what was let in before.

## Main definitions

* `Rule.Splits` — what stands before and after the first colon.
* `Rule.HasFault` — what keeps a text from being a rule.

## Main statements

* `Rule.ofText_eq_error_iff`, `Rule.exists_ofText_iff` — which texts are rules.
* `Allowlist.ofTexts_eq_error_iff`, `Allowlist.exists_ofTexts_iff` — which lists are allowlists.
* `Policy.checkMessage_eq_of_mem_iff`, `Policy.checkMessage_mono` — only the members count.
* `Policy.checkMessage_iff_splits` — all of this in terms of the texts.
-/

namespace HeadUnit

variable {text a b : String} {kind : MessageKind} {function : String}

/-! ## One rule -/

namespace Rule

/-- Of the text, `a` stands before the first colon and `b` after it. -/
def Splits (text a b : String) : Prop :=
  text = a ++ ":" ++ b ∧ ':' ∉ a.toList

theorem Splits.unique {a' b' : String} (h : Splits text a b) (h' : Splits text a' b') :
    a = a' ∧ b = b' :=
  Prod.mk.inj (Option.some.inj ((split?_eq_some_iff.2 h).symm.trans (split?_eq_some_iff.2 h')))

/-- What may stand before the first colon. -/
def kinds : List String :=
  ["*", "request", "response", "notification"]

theorem mem_kinds_iff : a ∈ kinds ↔ a = "*" ∨ ∃ kind, a = MessageKind.tag kind := by
  constructor
  · intro h
    have hcases : a = "*" ∨ a = "request" ∨ a = "response" ∨ a = "notification" := by
      simpa [kinds] using h
    obtain hstar | hrequest | hresponse | hnotification := hcases
    · exact .inl hstar
    · exact .inr ⟨.request, hrequest⟩
    · exact .inr ⟨.response, hresponse⟩
    · exact .inr ⟨.notification, hnotification⟩
  · rintro (rfl | ⟨kind, rfl⟩)
    · simp [kinds]
    · cases kind <;> simp [kinds, MessageKind.tag]

theorem exists_readKind_iff : (∃ admitted, readKind a = .ok admitted) ↔ a ∈ kinds := by
  simp only [readKind_eq_ok_iff, mem_kinds_iff]
  constructor
  · rintro ⟨_, ⟨hstar, -⟩ | ⟨kind, hkind, -⟩⟩
    · exact .inl hstar
    · exact .inr ⟨kind, hkind⟩
  · rintro (hstar | ⟨kind, hkind⟩)
    · exact ⟨none, .inl ⟨hstar, rfl⟩⟩
    · exact ⟨some kind, .inr ⟨kind, hkind, rfl⟩⟩

theorem readKind_of_notMem (h : a ∉ kinds) :
    readKind a = .error (.badRequest (.ruleKind a)) := by
  have hstar : a ≠ "*" := fun heq => h (mem_kinds_iff.2 (.inl heq))
  rw [readKind, if_neg hstar]
  cases hkind : MessageKind.ofTag? a with
  | none => rfl
  | some kind =>
    exact absurd (mem_kinds_iff.2 (.inr ⟨kind, MessageKind.ofTag?_eq_some_iff.1 hkind⟩)) h

theorem split?_eq_none_iff : split? text = none ↔ ':' ∉ text.toList := by
  rw [split?]
  cases hafter : text.toList.dropWhile (· != ':') with
  | nil =>
    have hall := List.dropWhile_eq_nil_iff.1 hafter
    refine iff_of_true rfl fun hmem => ?_
    simpa using hall ':' hmem
  | cons c after =>
    refine iff_of_false (by simp) fun hnot => ?_
    have hnil : text.toList.dropWhile (· != ':') = [] := by
      refine List.dropWhile_eq_nil_iff.2 fun d hd => bne_iff_ne.2 fun heq => hnot ?_
      exact heq ▸ hd
    simp [hnil] at hafter

/-- What keeps a text from being a rule: it has no colon, or something else than a kind or `*`
stands before the first one, or nothing stands after it. -/
inductive HasFault : String → RequestFault → Prop where
  | noColon {text : String} (h : ':' ∉ text.toList) : HasFault text (.ruleWithoutColon text)
  | kind {text a b : String} (h : Splits text a b) (ha : a ∉ kinds) :
      HasFault text (.ruleKind a)
  | noFunction {text a : String} (h : Splits text a "") (ha : a ∈ kinds) :
      HasFault text (.ruleWithoutFunction text)

theorem ofText_of_hasFault {fault : RequestFault} (h : HasFault text fault) :
    ofText text = .error (.badRequest fault) := by
  cases h with
  | noColon h => rw [ofText, split?_eq_none_iff.2 h]
  | kind h ha =>
    rw [ofText, split?_eq_some_iff.2 h]
    simp only [readKind_of_notMem ha]
    rfl
  | noFunction h ha =>
    obtain ⟨admitted, hkind⟩ := exists_readKind_iff.2 ha
    rw [ofText, split?_eq_some_iff.2 h]
    simp [hkind, bind, Except.bind]

/-- A text has a fault or is a rule. -/
theorem ofText_cases (text : String) : (∃ fault, HasFault text fault) ∨
    ∃ a b, Splits text a b ∧ a ∈ kinds ∧ b ≠ "" := by
  cases hsplit : split? text with
  | none => exact .inl ⟨_, .noColon (split?_eq_none_iff.1 hsplit)⟩
  | some parts =>
    obtain ⟨a, b⟩ := parts
    have hparts : Splits text a b := split?_eq_some_iff.1 hsplit
    by_cases ha : a ∈ kinds
    · by_cases hb : b = ""
      · subst hb
        exact .inl ⟨_, .noFunction hparts ha⟩
      · exact .inr ⟨a, b, hparts, ha, hb⟩
    · exact .inl ⟨_, .kind hparts ha⟩

theorem exists_ofText_of_splits (h : Splits text a b) (ha : a ∈ kinds) (hb : b ≠ "") :
    ∃ rule, ofText text = .ok rule := by
  obtain ⟨admitted, hkind⟩ := exists_readKind_iff.2 ha
  exact ⟨_, ofText_eq_ok_iff.2 ⟨a, b, admitted, split?_eq_some_iff.2 h, hkind, hb, rfl⟩⟩

theorem exists_ofText_iff : (∃ rule, ofText text = .ok rule) ↔
    ∃ a b, Splits text a b ∧ a ∈ kinds ∧ b ≠ "" := by
  constructor
  · rintro ⟨rule, hrule⟩
    obtain ⟨fault, hfault⟩ | hparts := ofText_cases text
    · cases hrule.symm.trans (ofText_of_hasFault hfault)
    · exact hparts
  · rintro ⟨a, b, hparts, ha, hb⟩
    exact exists_ofText_of_splits hparts ha hb

/-- The error of a text is its fault. -/
theorem ofText_eq_error_iff {e : Error} :
    ofText text = .error e ↔ ∃ fault, HasFault text fault ∧ e = .badRequest fault := by
  constructor
  · intro h
    obtain ⟨fault, hfault⟩ | ⟨a, b, hparts, ha, hb⟩ := ofText_cases text
    · exact ⟨fault, hfault, Except.error.inj (h.symm.trans (ofText_of_hasFault hfault))⟩
    · obtain ⟨rule, hrule⟩ := exists_ofText_of_splits hparts ha hb
      cases h.symm.trans hrule
  · rintro ⟨fault, hfault, rfl⟩
    exact ofText_of_hasFault hfault

/-- What the text covers can be read off the parts around its first colon. -/
theorem covers_iff_splits : Covers text kind function ↔
    ∃ a b, Splits text a b ∧ a ∈ ["*", kind.tag] ∧ b ∈ ["*", function] := by
  constructor
  · rintro ⟨a, b, htext, ha, hb⟩
    exact ⟨a, b, ⟨htext, colon_notMem_of_admits ha⟩, by simpa using ha, by simpa using hb⟩
  · rintro ⟨a, b, ⟨htext, -⟩, ha, hb⟩
    exact ⟨a, b, htext, by simpa using ha, by simpa using hb⟩

end Rule

/-! ## Allowlists -/

namespace Allowlist

variable {texts : List String} {rules : Allowlist} {e : Error}

theorem exists_ofTexts_iff : (∃ rules, ofTexts texts = .ok rules) ↔
    ∀ text ∈ texts, ∃ rule, Rule.ofText text = .ok rule := by
  induction texts with
  | nil => exact iff_of_true ⟨[], rfl⟩ (by simp)
  | cons text rest ih =>
    rw [List.forall_mem_cons, ← ih]
    constructor
    · rintro ⟨_, h⟩
      obtain ⟨rule, rules, hrule, hrules, -⟩ := ofTexts_cons_eq_ok_iff.1 h
      exact ⟨⟨rule, hrule⟩, rules, hrules⟩
    · rintro ⟨⟨rule, hrule⟩, rules, hrules⟩
      exact ⟨_, ofTexts_cons_eq_ok_iff.2 ⟨rule, rules, hrule, hrules, rfl⟩⟩

theorem ofTexts_cons_eq_error_iff : ofTexts (text :: texts) = .error e ↔
    Rule.ofText text = .error e ∨
      (∃ rule, Rule.ofText text = .ok rule) ∧ ofTexts texts = .error e := by
  rw [ofTexts, List.mapM_cons]
  change _ ↔ _ ∨ _ ∧ List.mapM Rule.ofText texts = .error e
  cases Rule.ofText text with
  | error e => simp [bind, Except.bind]
  | ok rule =>
    cases List.mapM Rule.ofText texts <;> simp [bind, Except.bind, pure, Except.pure]

/-- The first text that is no rule gives the error. -/
theorem ofTexts_eq_error_iff : ofTexts texts = .error e ↔
    ∃ before text after, texts = before ++ text :: after ∧
      (∀ earlier ∈ before, ∃ rule, Rule.ofText earlier = .ok rule) ∧
      Rule.ofText text = .error e := by
  induction texts with
  | nil => exact iff_of_false (fun h => by cases h) (by simp)
  | cons first rest ih =>
    rw [ofTexts_cons_eq_error_iff, ih]
    constructor
    · rintro (hfirst | ⟨hrule, before, text, after, rfl, hbefore, htext⟩)
      · exact ⟨[], first, rest, rfl, by simp, hfirst⟩
      · exact ⟨first :: before, text, after, rfl, List.forall_mem_cons.2 ⟨hrule, hbefore⟩, htext⟩
    · rintro ⟨before, text, after, hsplit, hbefore, htext⟩
      cases before with
      | nil =>
        obtain ⟨rfl, rfl⟩ := List.cons.inj hsplit
        exact .inl htext
      | cons earlier before =>
        obtain ⟨rfl, rfl⟩ := List.cons.inj hsplit
        obtain ⟨hrule, hbefore⟩ := List.forall_mem_cons.1 hbefore
        exact .inr ⟨hrule, before, text, after, rfl, hbefore, htext⟩

/-- What is no allowlist is a bad request. -/
theorem exists_of_ofTexts_eq_error (h : ofTexts texts = .error e) :
    ∃ fault, e = .badRequest fault := by
  obtain ⟨_, text, _, -, -, htext⟩ := ofTexts_eq_error_iff.1 h
  obtain ⟨fault, -, rfl⟩ := Rule.ofText_eq_error_iff.1 htext
  exact ⟨fault, rfl⟩

theorem ofTexts_cases (texts : List String) : (∃ rules, ofTexts texts = .ok rules) ∨
    ∃ fault, ofTexts texts = .error (.badRequest fault) := by
  cases h : ofTexts texts with
  | ok rules => exact .inl ⟨rules, rfl⟩
  | error e =>
    obtain ⟨fault, rfl⟩ := exists_of_ofTexts_eq_error h
    exact .inr ⟨fault, rfl⟩

theorem eq_nil_iff_of_ofTexts (h : ofTexts texts = .ok rules) : rules = [] ↔ texts = [] := by
  cases texts with
  | nil =>
    obtain rfl : rules = [] := (Except.ok.inj h).symm
    simp
  | cons text rest =>
    obtain ⟨rule, rules, -, -, rfl⟩ := ofTexts_cons_eq_ok_iff.1 h
    simp

end Allowlist

/-! ## Verdicts -/

namespace Policy

variable {c d : Config} {p q : Policy}

theorem exists_ofConfig_iff :
    (∃ p, ofConfig c = .ok p) ↔ ∃ rules, Allowlist.ofTexts c.allow = .ok rules := by
  constructor
  · rintro ⟨p, h⟩
    obtain ⟨rules, hrules, -⟩ := ofConfig_eq_ok_iff.1 h
    exact ⟨rules, hrules⟩
  · rintro ⟨rules, hrules⟩
    exact ⟨_, ofConfig_eq_ok_iff.2 ⟨rules, hrules, rfl⟩⟩

theorem checkMessage_of_allow_eq_nil (h : ofConfig c = .ok p) (hempty : c.allow = []) :
    p.checkMessage kind function = some .nothingAllowed := by
  obtain ⟨rules, hrules, rfl⟩ := ofConfig_eq_ok_iff.1 h
  have hnil : rules = [] := (Allowlist.eq_nil_iff_of_ofTexts hrules).2 hempty
  rw [checkMessage, hnil]
  rfl

/-- Neither the order of the texts nor repetitions change a verdict. -/
theorem checkMessage_eq_of_mem_iff (hp : ofConfig c = .ok p) (hq : ofConfig d = .ok q)
    (h : ∀ text, text ∈ d.allow ↔ text ∈ c.allow) :
    q.checkMessage kind function = p.checkMessage kind function := by
  obtain ⟨rules, hrules, rfl⟩ := ofConfig_eq_ok_iff.1 hp
  obtain ⟨others, hothers, rfl⟩ := ofConfig_eq_ok_iff.1 hq
  have hempty : others.isEmpty = rules.isEmpty := by
    rw [Bool.eq_iff_iff, List.isEmpty_iff, List.isEmpty_iff,
      Allowlist.eq_nil_iff_of_ofTexts hothers, Allowlist.eq_nil_iff_of_ofTexts hrules]
    simp only [List.eq_nil_iff_forall_not_mem, h]
  have hallows : Allowlist.allows others kind function = Allowlist.allows rules kind function := by
    rw [Bool.eq_iff_iff, Allowlist.allows_iff_exists_covers hothers,
      Allowlist.allows_iff_exists_covers hrules]
    simp only [h]
  simp only [checkMessage, hempty, hallows]

/-- With further texts the messages that were let in still are. -/
theorem checkMessage_mono (hp : ofConfig c = .ok p) (hq : ofConfig d = .ok q)
    (h : c.allow ⊆ d.allow) (hin : p.checkMessage kind function = none) :
    q.checkMessage kind function = none := by
  obtain ⟨text, htext, hcovers⟩ := (checkMessage_ofConfig hp).1 hin
  exact (checkMessage_ofConfig hq).2 ⟨text, h htext, hcovers⟩

/-- A list of texts is an allowlist exactly if each text has a colon with a kind or `*` before the
first one and something after it; any other list is a bad request. A policy with an allowlist lets
a message in exactly if, in one of the texts, its kind or `*` stands before the first colon and its
function or `*` after it. So the empty list lets nothing in, lists with the same texts give the
same verdicts, and a longer list lets in what a part of it does. -/
theorem checkMessage_iff_splits (c : Config) :
    ((∃ rules, Allowlist.ofTexts c.allow = .ok rules) ↔
      ∀ text ∈ c.allow, ∃ a b, Rule.Splits text a b ∧
        a ∈ ["*", "request", "response", "notification"] ∧ b ≠ "") ∧
    ((∃ rules, Allowlist.ofTexts c.allow = .ok rules) ∨
      ∃ fault, Allowlist.ofTexts c.allow = .error (.badRequest fault)) ∧
    ((∃ p, ofConfig c = .ok p) ↔ ∃ rules, Allowlist.ofTexts c.allow = .ok rules) ∧
    ∀ p, ofConfig c = .ok p →
      (∀ kind function, p.checkMessage kind function = none ↔
        ∃ text ∈ c.allow, ∃ a b, Rule.Splits text a b ∧
          a ∈ ["*", kind.tag] ∧ b ∈ ["*", function]) ∧
      (c.allow = [] → ∀ kind function, p.checkMessage kind function = some .nothingAllowed) ∧
      (∀ d, (∀ text, text ∈ d.allow ↔ text ∈ c.allow) → ∃ q, ofConfig d = .ok q ∧
        ∀ kind function, q.checkMessage kind function = p.checkMessage kind function) ∧
      ∀ d q, c.allow ⊆ d.allow → ofConfig d = .ok q → ∀ kind function,
        p.checkMessage kind function = none → q.checkMessage kind function = none := by
  have htexts (d : Config) : (∃ rules, Allowlist.ofTexts d.allow = .ok rules) ↔
      ∀ text ∈ d.allow, ∃ a b, Rule.Splits text a b ∧ a ∈ Rule.kinds ∧ b ≠ "" := by
    simp only [Allowlist.exists_ofTexts_iff, Rule.exists_ofText_iff]
  refine ⟨htexts c, Allowlist.ofTexts_cases c.allow, exists_ofConfig_iff,
    fun p hp => ⟨fun kind function => ?_, fun hempty kind function => ?_, fun d hsame => ?_, ?_⟩⟩
  · simp only [checkMessage_ofConfig hp, Rule.covers_iff_splits]
  · exact checkMessage_of_allow_eq_nil hp hempty
  · have hrules := (htexts c).1 (exists_ofConfig_iff.1 ⟨p, hp⟩)
    obtain ⟨q, hq⟩ := exists_ofConfig_iff.2
      ((htexts d).2 fun text htext => hrules text ((hsame text).1 htext))
    exact ⟨q, hq, fun _ _ => checkMessage_eq_of_mem_iff hp hq hsame⟩
  · exact fun d q hsubset hq _ _ => checkMessage_mono hp hq hsubset

/-- One rule is for a function with a colon in its name, and one for every notification, also the
one without a function. The texts in another order, one of them twice, let in the same; with a
further one they let in more. A kind in capitals is none, and without a rule nothing is let in. -/
theorem checkMessage_iff_splits_colons :
    let c : Config := ⟨1, 5, 1, 512, ["*:a:b", "notification:*"]⟩
    let turned : Config := ⟨1, 4, 2, 256, ["notification:*", "*:a:b", "notification:*"]⟩
    let longer : Config := ⟨1, 5, 1, 512, ["*:a:b", "request:*", "notification:*"]⟩
    let faulty : Config := ⟨1, 5, 1, 512, ["*:a:b", "REQUEST:*"]⟩
    (∃ p, ofConfig c = .ok p ∧ p.checkMessage .response "a:b" = none ∧
      p.checkMessage .notification "" = none ∧ p.checkMessage .request "*" ≠ none ∧
      (∃ q, ofConfig turned = .ok q ∧ q.checkMessage .response "a:b" = none) ∧
      ∃ q, ofConfig longer = .ok q ∧ q.checkMessage .response "a:b" = none) ∧
    (∃ fault, Allowlist.ofTexts faulty.allow = .error (.badRequest fault)) ∧
    ∃ p, ofConfig ⟨1, 5, 1, 512, []⟩ = .ok p ∧
      p.checkMessage .request "*" = some .nothingAllowed := by
  intro c turned longer faulty
  have hname : Rule.Splits "*:a:b" "*" "a:b" := ⟨rfl, by decide⟩
  have hevery : Rule.Splits "notification:*" "notification" "*" := ⟨rfl, by decide⟩
  have hrequests : Rule.Splits "request:*" "request" "*" := ⟨rfl, by decide⟩
  have hcapitals : Rule.Splits "REQUEST:*" "REQUEST" "*" := ⟨rfl, by decide⟩
  refine ⟨?_, ?_, ?_⟩
  · obtain ⟨htexts, -, hpolicy, hverdict⟩ := checkMessage_iff_splits c
    obtain ⟨p, hp⟩ := hpolicy.2 (htexts.2 (List.forall_mem_cons.2 ⟨⟨_, _, hname, by simp⟩,
      List.forall_mem_singleton.2 ⟨_, _, hevery, by simp⟩⟩))
    obtain ⟨hmessage, -, hsame, hmore⟩ := hverdict p hp
    have hresponse : p.checkMessage .response "a:b" = none :=
      (hmessage _ _).2 ⟨_, by simp [c], _, _, hname, by simp, by simp⟩
    refine ⟨p, hp, hresponse, ?_, fun hin => ?_, ?_, ?_⟩
    · exact (hmessage _ _).2 ⟨_, by simp [c], _, _, hevery, by simp [MessageKind.tag], by simp⟩
    · obtain ⟨text, htext, a, b, hparts, ha, hb⟩ := (hmessage _ _).1 hin
      obtain rfl | rfl : text = "*:a:b" ∨ text = "notification:*" := by simpa [c] using htext
      · obtain ⟨rfl, rfl⟩ := hparts.unique hname
        simp at hb
      · obtain ⟨rfl, rfl⟩ := hparts.unique hevery
        simp [MessageKind.tag] at ha
    · obtain ⟨q, hq, heq⟩ := hsame turned (by simp [c, turned, or_comm])
      exact ⟨q, hq, (heq _ _).trans hresponse⟩
    · obtain ⟨hlonger, -, hpolicy, -⟩ := checkMessage_iff_splits longer
      obtain ⟨q, hq⟩ := hpolicy.2 (hlonger.2 (List.forall_mem_cons.2 ⟨⟨_, _, hname, by simp⟩,
        List.forall_mem_cons.2 ⟨⟨_, _, hrequests, by simp⟩,
          List.forall_mem_singleton.2 ⟨_, _, hevery, by simp⟩⟩⟩))
      exact ⟨q, hq, hmore longer q (by simp [c, longer]) hq _ _ hresponse⟩
  · obtain ⟨htexts, hcases, -⟩ := checkMessage_iff_splits faulty
    refine hcases.resolve_left fun hok => ?_
    obtain ⟨a, b, hparts, ha, -⟩ := htexts.1 hok "REQUEST:*" (by simp [faulty])
    obtain ⟨rfl, rfl⟩ := hparts.unique hcapitals
    simp at ha
  · obtain ⟨htexts, -, hpolicy, hverdict⟩ := checkMessage_iff_splits ⟨1, 5, 1, 512, []⟩
    obtain ⟨p, hp⟩ := hpolicy.2 (htexts.2 (by simp))
    obtain ⟨-, hempty, -⟩ := hverdict p hp
    exact ⟨p, hp, hempty rfl _ _⟩

end Policy

end HeadUnit
