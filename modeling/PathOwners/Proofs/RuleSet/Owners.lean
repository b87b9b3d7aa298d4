import Mathlib.Data.List.Basic
import Mathlib.Data.List.Induction
import PathOwners.Proofs.RuleSet.LineByLine

/-!
# The owners that a file names

A rule set lists every owner that some rule names once, in the order of first appearance
(`RuleSet.firstAppearances_owners`). There is only one such list (`FirstAppearances.unique`), and that of two lists in a
row is known from theirs (`FirstAppearances.append`); so the owners of two lists of rules in a row are those of the
first and then those of the second that are new (`RuleSet.owners_once_in_order`).
-/

namespace PathOwners

/-- All the texts of a list, each of them once, in the order in which they first appear there. -/
structure FirstAppearances (all texts : List String) : Prop where
  mem : ∀ text, text ∈ texts ↔ text ∈ all
  ordered : texts.Pairwise fun a b => all.idxOf a < all.idxOf b

namespace FirstAppearances

variable {all texts : List String}

/-- No text is there twice. -/
theorem nodup (h : FirstAppearances all texts) : texts.Nodup := by
  refine h.ordered.imp fun hlt heq => ?_
  subst heq
  exact Nat.lt_irrefl _ hlt

theorem nil : FirstAppearances [] [] := ⟨fun _ => Iff.rfl, .nil⟩

theorem singleton (text : String) : FirstAppearances [text] [text] := ⟨fun _ => Iff.rfl, List.pairwise_singleton _ _⟩

/-- What appears first in the second of two lists stands behind all that appears in the first. -/
theorem append {all' texts' : List String} (h : FirstAppearances all texts) (h' : FirstAppearances all' texts') :
    FirstAppearances (all ++ all') (texts ++ texts'.filter fun text => text ∉ texts) := by
  have hold : ∀ a ∈ texts, (all ++ all').idxOf a = all.idxOf a := fun a ha =>
    List.idxOf_append_of_mem ((h.mem a).mp ha)
  have hnew : ∀ a ∈ texts'.filter fun text => text ∉ texts,
      (all ++ all').idxOf a = all.length + all'.idxOf a := fun a ha =>
    List.idxOf_append_of_notMem ((h.mem a).not.mp (by simpa using (List.mem_filter.mp ha).2))
  refine ⟨fun a => ?_, List.pairwise_append.mpr ⟨?_, ?_, fun a ha b hb => ?_⟩⟩
  · simp only [List.mem_append, List.mem_filter, h.mem, h'.mem, decide_eq_true_eq]
    tauto
  · refine h.ordered.imp_of_mem fun {a b} ha hb hlt => ?_
    rwa [hold a ha, hold b hb]
  · refine (h'.ordered.filter _).imp_of_mem fun {a b} ha hb hlt => ?_
    rw [hnew a ha, hnew b hb]
    omega
  · have hlt : all.idxOf a < all.length := List.idxOf_lt_length_of_mem ((h.mem a).mp ha)
    rw [hold a ha, hnew b hb]
    omega

/-- One more text is at the end of the list if it is new. -/
theorem concat (h : FirstAppearances all texts) (text : String) :
    FirstAppearances (all ++ [text]) (if text ∈ all then texts else texts ++ [text]) := by
  have happend := h.append (singleton text)
  rw [List.filter_singleton] at happend
  split_ifs with hold <;> simpa [h.mem, hold] using happend

/-- There is only one such list. -/
theorem unique {texts' : List String} (h : FirstAppearances all texts) (h' : FirstAppearances all texts') :
    texts = texts' := by
  have hperm : texts.Perm texts' :=
    (List.perm_ext_iff_of_nodup h.nodup h'.nodup).mpr fun a => (h.mem a).trans (h'.mem a).symm
  exact hperm.eq_of_pairwise (fun a b _ _ hab hba => absurd hba (Nat.lt_asymm hab)) h.ordered h'.ordered

/-- One text stands before another exactly where it appears before it. A text that does not appear at all counts as
standing at the end. -/
theorem idxOf_lt_iff (h : FirstAppearances all texts) (a b : String) :
    texts.idxOf a < texts.idxOf b ↔ all.idxOf a < all.idxOf b := by
  have hordered : ∀ {a b : String}, a ∈ texts → b ∈ texts → texts.idxOf a < texts.idxOf b →
      all.idxOf a < all.idxOf b := by
    intro a b ha hb hlt
    have hplaces := List.pairwise_iff_getElem.mp h.ordered _ _ (List.idxOf_lt_length_of_mem ha)
      (List.idxOf_lt_length_of_mem hb) hlt
    simpa only [List.getElem_idxOf] using hplaces
  by_cases ha : a ∈ texts
  · have ha' : all.idxOf a < all.length := List.idxOf_lt_length_of_mem ((h.mem a).mp ha)
    by_cases hb : b ∈ texts
    · refine ⟨hordered ha hb, fun hlt => ?_⟩
      rcases Nat.lt_trichotomy (texts.idxOf a) (texts.idxOf b) with hbefore | hsame | hbehind
      · exact hbefore
      · obtain rfl := (List.idxOf_inj ha).mp hsame
        exact absurd hlt (Nat.lt_irrefl _)
      · exact absurd hlt (Nat.lt_asymm (hordered hb ha hbehind))
    · refine iff_of_true ?_ ?_
      · rw [List.idxOf_eq_length hb]
        exact List.idxOf_lt_length_of_mem ha
      · rwa [List.idxOf_eq_length ((h.mem b).not.mp hb)]
  · refine iff_of_false ?_ ?_
    · rw [List.idxOf_eq_length ha]
      exact Nat.not_lt.mpr List.idxOf_le_length
    · rw [List.idxOf_eq_length ((h.mem a).not.mp ha)]
      exact Nat.not_lt.mpr List.idxOf_le_length

end FirstAppearances

/-- A list without its repetitions has what appears in it, in the order of first appearance. -/
theorem firstAppearances_eraseDups (all : List String) : FirstAppearances all all.eraseDups := by
  induction all using List.reverseRecOn with
  | nil => exact .nil
  | append_singleton all text ih =>
    have hlast : (all ++ [text]).eraseDups = if text ∈ all then all.eraseDups else all.eraseDups ++ [text] := by
      rw [List.eraseDups_append]
      split_ifs with hold <;> simp [List.removeAll, List.eraseDups_cons, hold]
    rw [hlast]
    exact ih.concat text

/-- **A rule set lists every owner that a rule names once, in the order of first appearance.** -/
theorem RuleSet.firstAppearances_owners (set : RuleSet) :
    FirstAppearances (set.rules.flatMap Rule.owners) set.owners := firstAppearances_eraseDups _

/-- The owners that some rules name, rule by rule. -/
theorem RuleSet.firstAppearances_ofRules (rules : List Rule) :
    FirstAppearances (rules.flatMap Rule.owners) (ofRules rules).owners := by
  have howners := (ofRules rules).firstAppearances_owners
  rwa [rules_ofRules] at howners

/-- **The owners of some rules, each once and in the order of first appearance.** They are the owners that a rule names,
each of them once. One stands before another exactly where it appears before it among the owners of all rules. So the
owners of two lists of rules in a row are those of the first and then those of the second that are not among them. -/
theorem RuleSet.owners_once_in_order (rules rules' : List Rule) :
    (∀ owner, owner ∈ (ofRules rules).owners ↔ ∃ rule ∈ rules, owner ∈ rule.owners) ∧
    (ofRules rules).owners.Nodup ∧
    (∀ a b, (ofRules rules).owners.idxOf a < (ofRules rules).owners.idxOf b ↔
      (rules.flatMap Rule.owners).idxOf a < (rules.flatMap Rule.owners).idxOf b) ∧
    (ofRules (rules ++ rules')).owners =
      (ofRules rules).owners ++ (ofRules rules').owners.filter fun owner => owner ∉ (ofRules rules).owners := by
  have h := firstAppearances_ofRules rules
  refine ⟨fun owner => (h.mem owner).trans List.mem_flatMap, h.nodup, h.idxOf_lt_iff, ?_⟩
  have happend := firstAppearances_ofRules (rules ++ rules')
  rw [List.flatMap_append] at happend
  exact happend.unique (h.append (firstAppearances_ofRules rules'))

end PathOwners
