import SharedMind.Kernel.Conflicts
import SharedMind.Contract.Registry

/-!
# How contradictions are classified

The contract lets two claims of one family contradict each other only where their valid
times meet.  The kernel looks at the valid times only when the predicate lists
`TEMPORAL_OVERLAP`.

* `ValidTime.Holds`, `ValidTime.Meet`: half-open valid times, unbounded where an end is
  `null`.
* `overlaps_iff`: what `_overlaps` decides.
* `classified_iff`: when `_conflict_kind` follows the contract.
* `disjoint_regions_conflict`: two claims on a region whose valid times are adjacent.
-/

namespace SharedMind

open Py

section

variable [Host]

/-! ### Valid times -/

/-- The moment, in microseconds, is within the valid time. -/
structure ValidTime.Holds (v : ValidTime) (m : Int) : Prop where
  lower : ∀ s, parseTime v.from = .ok (some s) → s ≤ m
  upper : ∀ e, parseTime v.to = .ok (some e) → m < e

/-- Two valid times have a moment in common. -/
def ValidTime.Meet (v w : ValidTime) : Prop := ∃ m, v.Holds m ∧ w.Holds m

/-- They have one in common that `datetime` can name, the last moment apart. -/
def ValidTime.MeetInCalendar (v w : ValidTime) : Prop :=
  ∃ m, 0 ≤ m ∧ m < maxMicros ∧ v.Holds m ∧ w.Holds m

/-- Both ends can be read. -/
def ValidTime.Parses (v : ValidTime) : Prop :=
  (∃ s, parseTime v.from = .ok s) ∧ ∃ e, parseTime v.to = .ok e

theorem ValidTime.MeetInCalendar.meet {v w : ValidTime} (h : v.MeetInCalendar w) : v.Meet w := by
  obtain ⟨m, _, _, hm⟩ := h
  exact ⟨m, hm⟩

/-- A moment that is read lies in the years 1 to 9999. -/
theorem parseTime_bounds {value : Option String} {t : Int} (h : parseTime value = .ok (some t)) :
    0 ≤ t ∧ t ≤ maxMicros := by
  cases value with
  | none => cases h
  | some s =>
    simp only [parseTime, bind_eq_ok, pure_eq_ok, Option.some.injEq] at h
    obtain ⟨d, _, utc, hutc, rfl⟩ := h
    cases hd : astimezoneUtc Host.localOffset d with
    | error e =>
      rw [hd] at hutc
      cases hutc
    | ok u =>
      rw [hd] at hutc
      obtain rfl : u = utc := Except.ok.inj hutc
      have hmoment : ∀ {offset : Int}, (if 0 ≤ d.wall - offset ∧ d.wall - offset ≤ maxMicros then
          (pure (d.wall - offset) : Except TimeError Int) else throw .overflowError) = .ok u →
          0 ≤ u ∧ u ≤ maxMicros := by
        intro offset h
        split at h
        · next hbounds =>
          obtain rfl := Except.ok.inj h
          exact hbounds
        · cases h
      unfold astimezoneUtc at hd
      dsimp only at hd
      split at hd
      · exact hmoment hd
      · obtain ⟨offset, _, hd⟩ := bind_eq_ok.mp hd
        exact hmoment hd

/-- **What `_overlaps` decides**: whether the two have a moment in common before the last
one there is. -/
theorem overlaps_iff {v w : ValidTime} (hv : v.Parses) (hw : w.Parses) :
    (overlaps v w = .ok true ↔ v.MeetInCalendar w) ∧
      (overlaps v w = .ok false ↔ ¬v.MeetInCalendar w) := by
  obtain ⟨⟨ls, hls⟩, le, hle⟩ := hv
  obtain ⟨⟨rs, hrs⟩, re, hre⟩ := hw
  have hmeet : v.MeetInCalendar w ↔
      max (ls.getD 0) (rs.getD 0) < min (le.getD maxMicros) (re.getD maxMicros) := by
    constructor
    · rintro ⟨m, h0, hlast, hvm, hwm⟩
      have hl : ls.getD 0 ≤ m := by
        cases ls with
        | none => exact h0
        | some s => exact hvm.lower s hls
      have hr : rs.getD 0 ≤ m := by
        cases rs with
        | none => exact h0
        | some s => exact hwm.lower s hrs
      have hle' : m < le.getD maxMicros := by
        cases le with
        | none => exact hlast
        | some e => exact hvm.upper e hle
      have hre' : m < re.getD maxMicros := by
        cases re with
        | none => exact hlast
        | some e => exact hwm.upper e hre
      exact lt_of_le_of_lt (max_le hl hr) (lt_min hle' hre')
    · intro h
      obtain ⟨hl, hr⟩ := lt_min_iff.mp h
      have hbound : ∀ {x : Option String} {e : Option Int}, parseTime x = .ok e →
          e.getD maxMicros ≤ maxMicros := by
        intro x e hx
        cases e with
        | none => exact le_rfl
        | some t => exact (parseTime_bounds hx).2
      have hzero : ∀ {x : Option String} {s : Option Int}, parseTime x = .ok s → 0 ≤ s.getD 0 := by
        intro x s hx
        cases s with
        | none => exact le_rfl
        | some t => exact (parseTime_bounds hx).1
      refine ⟨max (ls.getD 0) (rs.getD 0), (hzero hls).trans (le_max_left _ _),
        lt_of_lt_of_le hl (hbound hle), ⟨fun s hs => ?_, fun e he => ?_⟩,
        fun s hs => ?_, fun e he => ?_⟩
      · rw [hls] at hs
        obtain rfl := Except.ok.inj hs
        exact le_max_left _ _
      · rw [hle] at he
        obtain rfl := Except.ok.inj he
        exact hl
      · rw [hrs] at hs
        obtain rfl := Except.ok.inj hs
        exact le_max_right _ _
      · rw [hre] at he
        obtain rfl := Except.ok.inj he
        exact hr
  have hoverlaps : overlaps v w = .ok (decide (max (ls.getD 0) (rs.getD 0) <
      min (le.getD maxMicros) (re.getD maxMicros))) := by
    simp only [overlaps, hls, hrs, hle, hre, ok_bind]
    rfl
  rw [hoverlaps, hmeet]
  simp

/-- What passes the checks has a valid time that can be read. -/
theorem parses_of_semantics {p : Proposition} {predicate : PredicateDefinition}
    {evidence : List EvidenceLink} (h : validatePredicateSemantics p predicate evidence = .ok ()) :
    p.validTime.Parses := by
  unfold validatePredicateSemantics at h
  dsimp only at h
  obtain ⟨_, _, h⟩ := bind_eq_ok.mp h
  split at h
  · simp only [bind_eq_ok] at h
    obtain ⟨_, _, _, _, _, _, start, hstart, stop, hstop, _⟩ := h
    exact ⟨⟨start, hstart⟩, stop, hstop⟩
  · simp only [bind_eq_ok] at h
    obtain ⟨_, _, _, _, _, _, start, hstart, stop, hstop, _⟩ := h
    exact ⟨⟨start, hstart⟩, stop, hstop⟩
  · simp only [bind_eq_ok] at h
    obtain ⟨_, _, _, _, start, hstart, stop, hstop, _⟩ := h
    exact ⟨⟨start, hstart⟩, stop, hstop⟩

/-! ### Classification -/

variable {a b : Proposition} {predicate : PredicateDefinition}

/-- The kind the contract gives two propositions of one family: the rule of the kind is
listed, they differ as it says, and their valid times meet. -/
def Classified (a b : Proposition) (predicate : PredicateDefinition)
    (result : Option ConflictKind) : Prop :=
  ∀ kind, result = some kind ↔
    Contradict a b predicate kind ∧ a.validTime.Meet b.validTime

omit [Host] in
/-- Two propositions are opposed or exclude each other, not both. -/
theorem Contradict.eq {kind kind' : ConflictKind} (h : Contradict a b predicate kind)
    (h' : Contradict a b predicate kind') : kind = kind' := by
  cases kind <;> cases kind' <;> simp only [Contradict] at h h' <;> try rfl
  · exact absurd (h'.2.2.1.trans h'.2.2.2.1.symm) h.2.2
  · exact absurd (h.2.2.1.trans h.2.2.2.1.symm) h'.2.2

/-- `_conflict_kind` on propositions that passed their checks. -/
theorem conflictKind_ok (ha : a.validTime.Parses) (hb : b.validTime.Parses) :
    ∃ result, conflictKind a b predicate = .ok result ∧ ∀ kind, result = some kind ↔
      Contradict a b predicate kind ∧
        (.temporalOverlap ∈ predicate.rules → a.validTime.MeetInCalendar b.validTime) := by
  have hok : ∃ result, conflictKind a b predicate = .ok result := by
    unfold conflictKind
    by_cases hrule : .temporalOverlap ∈ predicate.rules
    · rw [if_pos hrule]
      by_cases hmeet : a.validTime.MeetInCalendar b.validTime
      · rw [(overlaps_iff ha hb).1.mpr hmeet]
        simp only [ok_bind, pure_bind]
        split_ifs <;> exact ⟨_, rfl⟩
      · rw [(overlaps_iff ha hb).2.mpr hmeet]
        exact ⟨_, rfl⟩
    · rw [if_neg hrule]
      simp only [pure_bind]
      split_ifs <;> exact ⟨_, rfl⟩
  obtain ⟨result, hresult⟩ := hok
  refine ⟨result, hresult, fun kind => ?_⟩
  have hkind : result = some kind ↔ conflictKind a b predicate = .ok (some kind) := by
    rw [hresult, Except.ok.injEq]
  rw [hkind, conflictKind_eq_some, (overlaps_iff ha hb).1, and_comm]

/-- **When `_conflict_kind` follows the contract**: whenever two propositions that
passed their checks differ as a rule of the predicate says, either the predicate lists
`TEMPORAL_OVERLAP`, and valid times that meet do so at a moment of the calendar, or it
does not, and the valid times meet. -/
theorem classified_iff (ea eb : List EvidenceLink)
    (ha : validatePredicateSemantics a predicate ea = .ok ())
    (hb : validatePredicateSemantics b predicate eb = .ok ()) :
    (∃ result, conflictKind a b predicate = .ok result ∧ Classified a b predicate result) ↔
      ∀ kind, Contradict a b predicate kind →
        if .temporalOverlap ∈ predicate.rules then
          a.validTime.Meet b.validTime → a.validTime.MeetInCalendar b.validTime
        else a.validTime.Meet b.validTime := by
  obtain ⟨result, hresult, hkind⟩ :=
    @conflictKind_ok _ _ _ predicate (parses_of_semantics ha) (parses_of_semantics hb)
  constructor
  · rintro ⟨other, hother, hclassified⟩ kind hdiffer
    rw [hresult] at hother
    obtain rfl := Except.ok.inj hother
    split
    · next hrule =>
      intro hmeet
      have hfound := (hclassified kind).mpr ⟨hdiffer, hmeet⟩
      exact ((hkind kind).mp hfound).2 hrule
    · next hrule =>
      have hfound := (hkind kind).mpr ⟨hdiffer, fun h => absurd h hrule⟩
      exact ((hclassified kind).mp hfound).2
  · intro h
    refine ⟨result, hresult, fun kind => ?_⟩
    rw [hkind kind]
    constructor
    · rintro ⟨hdiffer, hgated⟩
      refine ⟨hdiffer, ?_⟩
      have := h kind hdiffer
      split at this
      · next hrule => exact (hgated hrule).meet
      · exact this
    · rintro ⟨hdiffer, hmeet⟩
      refine ⟨hdiffer, fun hrule => ?_⟩
      have := h kind hdiffer
      rw [if_pos hrule] at this
      exact this hmeet

end

/-! ### Regions -/

/-- `deployment.region@1`. -/
def regionPredicate : PredicateDefinition where
  cardinality := .many
  conflictRules := [⟨.oppositePolarity, ⟨"polarity@1", by decide⟩⟩]
  description := ⟨"Region in which a system deployment is active.", by decide⟩
  evidencePolicy := ⟨⟨[.direct, .reported, .inferred], by decide⟩, oneLink⟩
  familyKeyFields := ⟨[subjectField, predicateField, ⟨"scope.environment", by decide⟩,
    ⟨"scope.component", by decide⟩, ⟨"scope.tenant", by decide⟩], by decide⟩
  key := ⟨"deployment.region@1", by decide⟩
  object := .entity ⟨[⟨"region", by decide⟩], by decide⟩
  scope := ⟨⟨[.component, .environment, .tenant], by decide⟩, ⟨[.environment], by decide⟩⟩
  subjectTypes := systemTypes
  temporal := .required

/-- The ledger runs in `region:eu`, or does not. -/
def regionProposition (polarity : Polarity) (validTime : ValidTime) : Proposition where
  object := .entity ⟨⟨"region:eu", by decide⟩, ⟨"region", by decide⟩⟩
  polarity := polarity
  predicate := ⟨"deployment.region@1", by decide⟩
  propositionVersion := propositionVersionOne
  scope := ⟨none, some ⟨"production", by decide⟩, none, none⟩
  subject := ledgerSystem
  validTime := validTime

def regionBefore : Proposition :=
  regionProposition .positive ⟨some "2024-01-01T00:00:00Z", some "2025-01-01T00:00:00Z"⟩

def regionAfter : Proposition := regionProposition .negative ⟨some "2025-01-01T00:00:00Z", none⟩

section

attribute [local instance] Host.utc

/-- The ledger runs in the region in 2024 and no longer from 2025: the two conflict. -/
theorem disjoint_regions_conflict : ¬∀ (a b : Proposition) (predicate : PredicateDefinition)
    (ea eb : List EvidenceLink), validatePredicateSemantics a predicate ea = .ok () →
    validatePredicateSemantics b predicate eb = .ok () →
    familyKey a predicate = familyKey b predicate →
    ∃ result, conflictKind a b predicate = .ok result ∧ Classified a b predicate result := by
  intro h
  obtain ⟨result, hresult, hclassified⟩ := h regionBefore regionAfter regionPredicate [] []
    (by decide) (by decide) rfl
  have hfound : conflictKind regionBefore regionAfter regionPredicate =
      .ok (some .polarityConflict) := by decide
  rw [hfound] at hresult
  obtain rfl := Except.ok.inj hresult
  obtain ⟨m, hm, hm'⟩ := ((hclassified .polarityConflict).mp rfl).2
  have hstop := hm.upper 63871286400000000 (by decide)
  have hstart := hm'.lower 63871286400000000 (by decide)
  exact absurd hstop (not_lt.mpr hstart)

/-- Two claims on the region that meet. -/
theorem classified_regions : ∃ result, conflictKind regionBefore
    (regionProposition .negative ⟨some "2024-06-01T00:00:00Z", none⟩) regionPredicate = .ok result ∧
    Classified regionBefore (regionProposition .negative ⟨some "2024-06-01T00:00:00Z", none⟩)
      regionPredicate result := by
  refine (classified_iff [] [] (by decide) (by decide)).mpr fun kind _ => ?_
  have hfirst : parseTime (some "2024-01-01T00:00:00Z") = .ok (some 63839664000000000) := by
    decide
  have hnext : parseTime (some "2024-06-01T00:00:00Z") = .ok (some 63852796800000000) := by
    decide
  have hlast : parseTime (some "2025-01-01T00:00:00Z") = .ok (some 63871286400000000) := by
    decide
  rw [if_neg (by decide)]
  refine ⟨63852796800000000, ⟨fun s hs => ?_, fun e he => ?_⟩, fun s hs => ?_, fun e he => ?_⟩
  · obtain rfl := Option.some.inj (Except.ok.inj (hfirst.symm.trans hs))
    decide
  · obtain rfl := Option.some.inj (Except.ok.inj (hlast.symm.trans he))
    decide
  · obtain rfl := Option.some.inj (Except.ok.inj (hnext.symm.trans hs))
    exact le_rfl
  · exact nomatch he

end

end SharedMind
