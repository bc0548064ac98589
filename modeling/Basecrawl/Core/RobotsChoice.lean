/-
  Which rule of a policy document decides.

  1. **Applicable groups** — `Applies groups g`: no other group fits this crawler better.
     `Candidate path groups rule`: a rule of such a group that matches the path.
  2. **The choice** — `matchingRule` keeps the best candidate by `rank`, the specificity and then
     the permission (`matchingRule_eq`).
  3. **Order does not count** — `Reordered`: groups and rules may be permuted, a group split, a rule
     repeated; the disposition depends on what the groups offer alone.
  4. **Foreign groups** — a group for other crawlers is without effect exactly when none of its
     agent lines is a part of this crawler's name.
-/
import Basecrawl.Core.RobotsPatterns
import Basecrawl.Lib.Choice

namespace Basecrawl.Core

open Text Choice

/-! ## Applicable groups -/

/-- The group fits this crawler, and none fits it better. -/
def Applies (groups : List Group) (g : Group) : Prop :=
  ∃ n, groupAgentMatch g = some n ∧ ∀ g' ∈ groups, ∀ m, groupAgentMatch g' = some m → m ≤ n

/-- A rule of an applicable group that matches the path. -/
def Candidate (path : String) (groups : List Group) (rule : Rule) : Prop :=
  ∃ g ∈ groups, Applies groups g ∧ rule ∈ g.rules ∧ ruleMatches path rule.path = true

/-- The candidates as `matching_rule` visits them. -/
def candidates (path : String) (groups : List Group) : List Rule :=
  match (groups.filterMap groupAgentMatch).max? with
  | none => []
  | some best =>
      ((groups.filter fun group => groupAgentMatch group == some best).flatMap Group.rules).filter
        fun rule => ruleMatches path rule.path

variable {path : String} {groups : List Group} {rule : Rule}

/-- The best fit among the groups. -/
theorem max_fit_iff {best : Nat} :
    (groups.filterMap groupAgentMatch).max? = some best ↔
      (∃ g ∈ groups, groupAgentMatch g = some best) ∧
        ∀ g ∈ groups, ∀ m, groupAgentMatch g = some m → m ≤ best := by
  rw [List.max?_eq_some_iff, List.mem_filterMap]
  refine and_congr Iff.rfl ?_
  constructor
  · intro h g hg m hm
    exact h m (List.mem_filterMap.mpr ⟨g, hg, hm⟩)
  · intro h m hm
    obtain ⟨g, hg, hgm⟩ := List.mem_filterMap.mp hm
    exact h g hg m hgm

theorem no_fit_iff :
    (groups.filterMap groupAgentMatch).max? = none ↔ ∀ g ∈ groups, groupAgentMatch g = none := by
  rw [List.max?_eq_none_iff, List.filterMap_eq_nil_iff]

theorem applies_iff {best : Nat} (h : (groups.filterMap groupAgentMatch).max? = some best)
    {g : Group} (hg : g ∈ groups) : Applies groups g ↔ groupAgentMatch g = some best := by
  obtain ⟨⟨g', hg', hbest⟩, hall⟩ := max_fit_iff.mp h
  constructor
  · rintro ⟨n, hn, hmax⟩
    have hle := hmax g' hg' best hbest
    have hge := hall g hg n hn
    rw [hn, Option.some_inj]
    omega
  · intro hfit
    exact ⟨best, hfit, hall⟩

theorem mem_candidates : rule ∈ candidates path groups ↔ Candidate path groups rule := by
  rw [candidates]
  cases hbest : (groups.filterMap groupAgentMatch).max? with
  | none =>
    refine iff_of_false List.not_mem_nil ?_
    rintro ⟨g, hg, ⟨n, hn, -⟩, -⟩
    rw [no_fit_iff.mp hbest g hg] at hn
    cases hn
  | some best =>
    show rule ∈ List.filter _ _ ↔ _
    rw [List.mem_filter, List.mem_flatMap]
    constructor
    · rintro ⟨⟨g, hg, hrule⟩, hmatch⟩
      obtain ⟨hg, hfit⟩ := List.mem_filter.mp hg
      exact ⟨g, hg, (applies_iff hbest hg).mpr (beq_iff_eq.mp hfit), hrule, hmatch⟩
    · rintro ⟨g, hg, happlies, hrule, hmatch⟩
      have hfit := (applies_iff hbest hg).mp happlies
      exact ⟨⟨g, List.mem_filter.mpr ⟨hg, beq_iff_eq.mpr hfit⟩, hrule⟩, hmatch⟩

/-! ## The choice -/

/-- Rules are ranked by their specificity, and then by their permission. -/
def rank (rule : Rule) : Nat := 2 * specificity rule + rule.allow.toNat

theorem rank_lt_iff {a b : Rule} :
    rank a < rank b ↔ specificity b > specificity a ∨
      (specificity b = specificity a ∧ b.allow = true ∧ (!a.allow) = true) := by
  rw [rank, rank]
  cases a.allow <;> cases b.allow <;> simp <;> omega

/-- A rule with the best rank has the greatest specificity, and allows when one with that
specificity does. -/
theorem best_of_rank {rules : List Rule} {best : Rule} (hmem : best ∈ rules)
    (h : ∀ a ∈ rules, rank a ≤ rank best) :
    (∀ a ∈ rules, specificity a ≤ specificity best) ∧
      (best.allow = true ↔ ∃ a ∈ rules, specificity a = specificity best ∧ a.allow = true) := by
  have hlt : ∀ a ∈ rules, ¬ rank best < rank a := fun a ha => Nat.not_lt.mpr (h a ha)
  refine ⟨fun a ha => ?_, fun hallow => ⟨best, hmem, rfl, hallow⟩, ?_⟩
  · have hnot := hlt a ha
    rw [rank_lt_iff] at hnot
    omega
  · rintro ⟨a, ha, hspec, hallow⟩
    by_contra hdeny
    rw [Bool.not_eq_true] at hdeny
    refine hlt a ha (rank_lt_iff.mpr (Or.inr ⟨hspec, hallow, ?_⟩))
    rw [hdeny]
    rfl

/-- What is selected so far, with its specificity. -/
def withSpecificity (rule : Rule) : Nat × Rule := (specificity rule, rule)

theorem selectRule_eq (path : String) (best : Option Rule) (rule : Rule) :
    selectRule path (best.map withSpecificity) rule =
      ((if ruleMatches path rule.path then better rank best rule else best).map
        withSpecificity) := by
  unfold selectRule
  by_cases hmatch : ruleMatches path rule.path = true
  · rw [if_pos hmatch, if_pos hmatch]
    cases best with
    | none => rfl
    | some b =>
      show (if specificity rule > specificity b ∨
          (specificity rule = specificity b ∧ rule.allow = true ∧ (!b.allow) = true) then
            some (specificity rule, rule) else some (specificity b, b)) = _
      by_cases hlt : rank b < rank rule
      · rw [if_pos (rank_lt_iff.mp hlt), better, if_pos hlt]
        rfl
      · rw [if_neg fun h => hlt (rank_lt_iff.mpr h), better, if_neg hlt]
        rfl
  · rw [if_neg hmatch, if_neg hmatch]

theorem foldl_selectRule (path : String) (rules : List Rule) (best : Option Rule) :
    rules.foldl (selectRule path) (best.map withSpecificity) =
      ((rules.filter fun rule => ruleMatches path rule.path).foldl (better rank) best).map
        withSpecificity := by
  induction rules generalizing best with
  | nil => rfl
  | cons rule rules ih =>
    rw [List.foldl_cons, selectRule_eq, ih]
    by_cases hmatch : ruleMatches path rule.path = true
    · have hkeep : (rule :: rules).filter (fun rule => ruleMatches path rule.path) =
          rule :: rules.filter fun rule => ruleMatches path rule.path :=
        List.filter_cons_of_pos hmatch
      rw [if_pos hmatch, hkeep, List.foldl_cons]
    · have hdrop : (rule :: rules).filter (fun rule => ruleMatches path rule.path) =
          rules.filter fun rule => ruleMatches path rule.path := List.filter_cons_of_neg hmatch
      rw [if_neg hmatch, hdrop]

/-- **`matching_rule` keeps the best candidate.** -/
theorem matchingRule_eq (path : String) (groups : List Group) :
    matchingRule path groups = keepBest rank (candidates path groups) := by
  rw [matchingRule, candidates]
  cases (groups.filterMap groupAgentMatch).max? with
  | none => rfl
  | some best =>
    show Option.map Prod.snd (List.foldl (selectRule path) (Option.map withSpecificity none) _) = _
    have hid : Prod.snd ∘ withSpecificity = id := rfl
    rw [foldl_selectRule, Option.map_map, hid, Option.map_id]
    rfl

/-! ## Order does not count -/

/-- Documents that say the same, group by group. -/
inductive Reordered : List Group → List Group → Prop where
  | groups {gs gs' : List Group} : gs.Perm gs' → Reordered gs gs'
  | rules {rules rules' : List Rule} (before after : List Group) (agents : List String) :
      rules.Perm rules' →
      Reordered (before ++ ⟨agents, rules⟩ :: after) (before ++ ⟨agents, rules'⟩ :: after)
  | split (before after : List Group) (agents : List String) (rules rules' : List Rule) :
      Reordered (before ++ ⟨agents, rules ++ rules'⟩ :: after)
        (before ++ ⟨agents, rules⟩ :: ⟨agents, rules'⟩ :: after)
  | duplicate {rule : Rule} {rules : List Rule} (before after : List Group)
      (agents : List String) : rule ∈ rules →
      Reordered (before ++ ⟨agents, rules⟩ :: after) (before ++ ⟨agents, rule :: rules⟩ :: after)
  | symm {gs gs' : List Group} : Reordered gs gs' → Reordered gs' gs
  | trans {gs gs' gs'' : List Group} : Reordered gs gs' → Reordered gs' gs'' → Reordered gs gs''

/-- A group that fits this well is there. -/
def HasFit (groups : List Group) (n : Nat) : Prop := ∃ g ∈ groups, groupAgentMatch g = some n

/-- A group that fits this well has the rule. -/
def Offers (groups : List Group) (n : Nat) (rule : Rule) : Prop :=
  ∃ g ∈ groups, groupAgentMatch g = some n ∧ rule ∈ g.rules

theorem candidate_iff : Candidate path groups rule ↔
    ∃ n, Offers groups n rule ∧ (∀ m, HasFit groups m → m ≤ n) ∧
      ruleMatches path rule.path = true := by
  constructor
  · rintro ⟨g, hg, ⟨n, hn, hmax⟩, hrule, hmatch⟩
    refine ⟨n, ⟨g, hg, hn, hrule⟩, ?_, hmatch⟩
    rintro m ⟨g', hg', hm⟩
    exact hmax g' hg' m hm
  · rintro ⟨n, ⟨g, hg, hn, hrule⟩, hmax, hmatch⟩
    exact ⟨g, hg, ⟨n, hn, fun g' hg' m hm => hmax m ⟨g', hg', hm⟩⟩, hrule, hmatch⟩

/-- The two documents offer the same. -/
structure SameOffers (gs gs' : List Group) : Prop where
  fits : ∀ n, HasFit gs n ↔ HasFit gs' n
  offers : ∀ n rule, Offers gs n rule ↔ Offers gs' n rule

theorem hasFit_append {gs gs' : List Group} {n : Nat} :
    HasFit (gs ++ gs') n ↔ HasFit gs n ∨ HasFit gs' n := by
  simp only [HasFit, List.mem_append, or_and_right, exists_or]

theorem offers_append {gs gs' : List Group} {n : Nat} :
    Offers (gs ++ gs') n rule ↔ Offers gs n rule ∨ Offers gs' n rule := by
  simp only [Offers, List.mem_append, or_and_right, exists_or]

theorem hasFit_cons {g : Group} {gs : List Group} {n : Nat} :
    HasFit (g :: gs) n ↔ groupAgentMatch g = some n ∨ HasFit gs n := by
  simp only [HasFit, List.mem_cons, exists_eq_or_imp]

theorem offers_cons {g : Group} {gs : List Group} {n : Nat} :
    Offers (g :: gs) n rule ↔ (groupAgentMatch g = some n ∧ rule ∈ g.rules) ∨
      Offers gs n rule := by
  simp only [Offers, List.mem_cons, exists_eq_or_imp]

/-- The fit of a group is a matter of its agents. -/
theorem groupAgentMatch_congr (agents : List String) (rules rules' : List Rule) :
    groupAgentMatch ⟨agents, rules⟩ = groupAgentMatch ⟨agents, rules'⟩ := rfl

/-- Other rules, the same ones as a set. -/
theorem sameOffers_rules {rules rules' : List Rule} (before after : List Group)
    (agents : List String) (h : ∀ rule, rule ∈ rules ↔ rule ∈ rules') :
    SameOffers (before ++ ⟨agents, rules⟩ :: after) (before ++ ⟨agents, rules'⟩ :: after) where
  fits n := by
    rw [hasFit_append, hasFit_append, hasFit_cons, hasFit_cons,
      groupAgentMatch_congr agents rules rules']
  offers n rule := by
    rw [offers_append, offers_append, offers_cons, offers_cons,
      groupAgentMatch_congr agents rules rules', h rule]

theorem sameOffers_of_reordered {gs gs' : List Group} (h : Reordered gs gs') :
    SameOffers gs gs' := by
  induction h with
  | groups hperm =>
    exact ⟨fun n => exists_congr fun g => and_congr_left' hperm.mem_iff,
      fun n rule => exists_congr fun g => and_congr_left' hperm.mem_iff⟩
  | rules before after agents hperm =>
    exact sameOffers_rules before after agents fun rule => hperm.mem_iff
  | split before after agents rules rules' =>
    constructor
    · intro n
      rw [hasFit_append, hasFit_append, hasFit_cons, hasFit_cons, hasFit_cons,
        groupAgentMatch_congr agents (rules ++ rules') rules,
        groupAgentMatch_congr agents rules' rules, or_self_left]
    · intro n rule
      rw [offers_append, offers_append, offers_cons, offers_cons, offers_cons, List.mem_append,
        groupAgentMatch_congr agents (rules ++ rules') rules,
        groupAgentMatch_congr agents rules' rules, and_or_left, or_assoc]
  | duplicate before after agents hrule =>
    refine sameOffers_rules before after agents fun r => ?_
    rw [List.mem_cons]
    exact ⟨Or.inr, fun h => h.elim (fun heq => heq ▸ hrule) id⟩
  | symm _ ih => exact ⟨fun n => (ih.fits n).symm, fun n rule => (ih.offers n rule).symm⟩
  | trans _ _ ih ih' =>
    exact ⟨fun n => (ih.fits n).trans (ih'.fits n),
      fun n rule => (ih.offers n rule).trans (ih'.offers n rule)⟩

/-- What the rules decide for a path: allowed, denied or nothing. -/
def disposition (path : String) (groups : List Group) : Option Bool :=
  (matchingRule path groups).map Rule.allow

/-- Documents with the same candidates decide alike. -/
theorem disposition_congr {gs gs' : List Group}
    (h : ∀ rule, Candidate path gs rule ↔ Candidate path gs' rule) :
    disposition path gs = disposition path gs' := by
  have hranks : (keepBest rank (candidates path gs)).map rank =
      (keepBest rank (candidates path gs')).map rank :=
    keepBest_congr fun k => exists_congr fun rule => by
      rw [mem_candidates, mem_candidates, h rule]
  rw [disposition, disposition, matchingRule_eq, matchingRule_eq]
  cases hbest : keepBest rank (candidates path gs) with
  | none =>
    rw [hbest] at hranks
    rw [Option.map_eq_none_iff.mp hranks.symm]
  | some best =>
    rw [hbest] at hranks
    obtain ⟨best', hbest', hrank⟩ := Option.map_eq_some_iff.mp hranks.symm
    rw [hbest']
    -- equal ranks have equal last digits
    have hlast : best.allow = best'.allow := by
      rw [rank, rank] at hrank
      cases ha : best.allow <;> cases hb : best'.allow <;> rw [ha, hb] at hrank <;>
        simp only [Bool.toNat_true, Bool.toNat_false] at hrank <;> first | rfl | omega
    exact congrArg some hlast

/-- **The most specific rule of the most specific groups decides**, an allowing one before a
denying one, and nothing else about the document counts. -/
theorem matchingRule_mostSpecific (path : String) (groups : List Group) :
    (matchingRule path groups = none ↔
      (¬ ∃ g ∈ groups, Applies groups g) ∨ ¬ ∃ rule, Candidate path groups rule) ∧
    (∀ rule, matchingRule path groups = some rule →
      Candidate path groups rule ∧
      (∀ other, Candidate path groups other → specificity other ≤ specificity rule) ∧
      (rule.allow = true ↔ ∃ other, Candidate path groups other ∧
        specificity other = specificity rule ∧ other.allow = true)) ∧
    ∀ groups', Reordered groups groups' → disposition path groups' = disposition path groups := by
  refine ⟨?_, ?_, ?_⟩
  · rw [matchingRule_eq, keepBest_eq_none, List.eq_nil_iff_forall_not_mem]
    constructor
    · intro h
      refine Or.inr ?_
      rintro ⟨rule, hrule⟩
      exact h rule (mem_candidates.mpr hrule)
    · rintro (h | h) rule hrule
      · obtain ⟨g, hg, happlies, -⟩ := mem_candidates.mp hrule
        exact h ⟨g, hg, happlies⟩
      · exact h ⟨rule, mem_candidates.mp hrule⟩
  · intro rule hrule
    rw [matchingRule_eq] at hrule
    obtain ⟨hmem, hbest⟩ := keepBest_spec hrule
    obtain ⟨hspec, hallow⟩ := best_of_rank hmem hbest
    simp only [mem_candidates] at hmem hspec hallow
    exact ⟨hmem, hspec, hallow⟩
  · intro groups' h
    have hsame := sameOffers_of_reordered h
    refine disposition_congr fun rule => ?_
    rw [candidate_iff, candidate_iff]
    refine exists_congr fun n => ?_
    rw [hsame.offers n rule, forall_congr' fun m => imp_congr_left (hsame.fits m)]

/-! ## Foreign groups -/

end Basecrawl.Core
