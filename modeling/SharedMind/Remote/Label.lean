import SharedMind.Remote.Decision

/-!
# The label of a source

* `longest_eq_some`: of the labels that are given, one whose root is longest.
* `matchedLabel_eq_some_iff`: the label a reference gets is the one that prefixes it and that
  no longer one does.
* `sourceLabel_root_eq_none`: a reference without a label is under no root.
-/

namespace SharedMind.Remote

open Py

/-! ### The longest label -/

section

variable {labels : List SourceRoot} {label selected : SourceRoot}

theorem longer_spec (best : Option SourceRoot) (label : SourceRoot) :
    ∃ b, longer best label = some b ∧ (best = some b ∨ b = label) ∧
      label.sourceRoot.length ≤ b.sourceRoot.length ∧
      ∀ old, best = some old → old.sourceRoot.length ≤ b.sourceRoot.length := by
  cases best with
  | none => exact ⟨label, rfl, Or.inr rfl, le_rfl, fun _ h => nomatch h⟩
  | some b =>
    by_cases hlt : b.sourceRoot.length < label.sourceRoot.length
    · exact ⟨label, if_pos hlt, Or.inr rfl, le_rfl, fun old h => by cases h; exact hlt.le⟩
    · exact ⟨b, if_neg hlt, Or.inl rfl, not_lt.mp hlt, fun old h => by cases h; exact le_rfl⟩

/-- The longest label, from one that is given on. -/
theorem foldl_longer {best : Option SourceRoot} :
    (labels.foldl longer best = none ↔ best = none ∧ labels = []) ∧
    ∀ selected, labels.foldl longer best = some selected →
      (best = some selected ∨ selected ∈ labels) ∧ ∀ label, best = some label ∨ label ∈ labels →
        label.sourceRoot.length ≤ selected.sourceRoot.length := by
  induction labels generalizing best with
  | nil =>
    refine ⟨by simp, fun selected h => ⟨Or.inl h, fun label hlabel => ?_⟩⟩
    rw [List.foldl_nil] at h
    rcases hlabel with hlabel | hlabel
    · rw [h] at hlabel
      rw [Option.some.inj hlabel]
    · exact absurd hlabel List.not_mem_nil
  | cons l ls ih =>
    obtain ⟨hnone, hsome⟩ := @ih (longer best l)
    obtain ⟨b, hb, hfrom, hl, hold⟩ := longer_spec best l
    rw [List.foldl_cons]
    refine ⟨?_, fun selected h => ?_⟩
    · rw [hnone, hb]
      simp
    · obtain ⟨hmem, hmax⟩ := hsome selected h
      refine ⟨?_, fun label hlabel => ?_⟩
      · rcases hmem with hmem | hmem
        · rw [hb] at hmem
          obtain rfl := Option.some.inj hmem
          rcases hfrom with hfrom | rfl
          · exact Or.inl hfrom
          · exact Or.inr List.mem_cons_self
        · exact Or.inr (List.mem_cons_of_mem _ hmem)
      · have hle := hmax b (Or.inl hb)
        rcases hlabel with hlabel | hlabel
        · exact (hold label hlabel).trans hle
        · rcases List.mem_cons.mp hlabel with rfl | hlabel
          · exact hl.trans hle
          · exact hmax label (Or.inr hlabel)

theorem longest_eq_none : longest labels = none ↔ labels = [] := by
  rw [longest, foldl_longer.1]
  simp

theorem longest_eq_some (h : longest labels = some selected) : selected ∈ labels ∧
    ∀ label ∈ labels, label.sourceRoot.length ≤ selected.sourceRoot.length := by
  obtain ⟨hmem, hmax⟩ := foldl_longer.2 selected h
  exact ⟨hmem.resolve_left (fun h => nomatch h), fun label hl => hmax label (Or.inr hl)⟩

end

/-! ### Roots a reference is under -/

/-- A reference that is safe and under the root, as it is written. -/
def Under (ref : PyStr) (root : String) : Prop := sourceRefIsSafe ref = true ∧ ref.StartsWith root

theorem length_ofString (s : String) : (PyStr.ofString s).points.length = s.length := by
  rw [PyStr.ofString, List.length_map, String.length_toList]

/-- The string of a shorter root of one reference begins that of a longer one. -/
theorem startsWith_of_longer {a b : PyStr} {root selected : String} (hroot : a.StartsWith root)
    (hselected : a.StartsWith selected) (hle : root.length ≤ selected.length)
    (hb : b.StartsWith selected) : b.StartsWith root := by
  refine (List.prefix_of_prefix_length_le hroot hselected ?_).trans hb
  rwa [length_ofString, length_ofString]

theorem eq_of_startsWith {a : PyStr} {r s : String} (hr : a.StartsWith r) (hs : a.StartsWith s)
    (hlen : r.length = s.length) : r = s := by
  refine PyStr.ofString_injective ?_
  have hlen' : (PyStr.ofString r).points.length = (PyStr.ofString s).points.length := by
    rw [length_ofString, length_ofString, hlen]
  have hpre := List.prefix_of_prefix_length_le hr hs hlen'.le
  have heq := hpre.eq_of_length hlen'
  cases hr' : PyStr.ofString r
  cases hs' : PyStr.ofString s
  rw [hr', hs'] at heq
  exact congrArg PyStr.mk heq

section

variable {policy : Policy} {a b ref : PyStr} {selected : SourceRoot}

theorem matchedLabel_eq_none :
    matchedLabel policy ref = none ↔ ∀ label ∈ policy.sourceLabels, ¬ref.StartsWith label.sourceRoot := by
  rw [matchedLabel, longest_eq_none, List.filter_eq_nil_iff]
  simp

theorem matchedLabel_eq_some (h : matchedLabel policy ref = some selected) :
    selected ∈ policy.sourceLabels ∧ ref.StartsWith selected.sourceRoot ∧
      ∀ label ∈ policy.sourceLabels, ref.StartsWith label.sourceRoot →
        label.sourceRoot.length ≤ selected.sourceRoot.length := by
  obtain ⟨hmem, hmax⟩ := longest_eq_some h
  rw [List.mem_filter, decide_eq_true_eq] at hmem
  exact ⟨hmem.1, hmem.2, fun label hl hs => hmax label (List.mem_filter.mpr ⟨hl, decide_eq_true hs⟩)⟩

/-- Labels are told apart by their roots. -/
theorem label_eq_of_root {l m : SourceRoot} (hl : l ∈ policy.sourceLabels)
    (hm : m ∈ policy.sourceLabels) (h : l.sourceRoot = m.sourceRoot) : l = m :=
  List.inj_on_of_nodup_map policy.valid.sourceRoots hl hm h

/-- The label of a reference is told by the roots it is under. -/
theorem matchedLabel_congr (h : ∀ label ∈ policy.sourceLabels,
    a.StartsWith label.sourceRoot ↔ b.StartsWith label.sourceRoot) :
    matchedLabel policy a = matchedLabel policy b :=
  congrArg longest (List.filter_congr fun label hl => by simp [h label hl])

theorem sourceLabel_not_safe (h : sourceRefIsSafe ref ≠ true) :
    sourceLabel policy (some ref) = .none := if_neg h

theorem sourceLabel_root (hsafe : sourceRefIsSafe ref = true) :
    (sourceLabel policy (some ref)).sourceRoot = (matchedLabel policy ref).map SourceRoot.sourceRoot := by
  rw [sourceLabel]
  simp only [if_pos hsafe]
  cases matchedLabel policy ref <;> rfl

/-- A reference that has no label is under no root. -/
theorem sourceLabel_root_eq_none : (sourceLabel policy (some ref)).sourceRoot = none ↔
    ∀ label ∈ policy.sourceLabels, ¬Under ref label.sourceRoot := by
  by_cases hsafe : sourceRefIsSafe ref = true
  · rw [sourceLabel_root hsafe, Option.map_eq_none_iff, matchedLabel_eq_none]
    simp [Under, hsafe]
  · rw [sourceLabel_not_safe hsafe]
    simp [SourceLabel.none, Under, hsafe]

/-- **The label of a reference prefixes it, and no longer one does.** -/
theorem matchedLabel_eq_some_iff : matchedLabel policy ref = some selected ↔
    selected ∈ policy.sourceLabels ∧ ref.StartsWith selected.sourceRoot ∧
      ∀ label ∈ policy.sourceLabels, ref.StartsWith label.sourceRoot →
        label.sourceRoot.length ≤ selected.sourceRoot.length := by
  refine ⟨matchedLabel_eq_some, fun ⟨hmem, hstart, hmax⟩ => ?_⟩
  cases hmatched : matchedLabel policy ref with
  | none => exact absurd hstart (matchedLabel_eq_none.mp hmatched selected hmem)
  | some label =>
    obtain ⟨hmem', hstart', hmax'⟩ := matchedLabel_eq_some hmatched
    have hlen := Nat.le_antisymm (hmax label hmem' hstart') (hmax' selected hmem hstart)
    rw [label_eq_of_root hmem' hmem (eq_of_startsWith hstart' hstart hlen)]

end

end SharedMind.Remote
