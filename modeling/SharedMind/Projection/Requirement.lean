import SharedMind.Kernel.StateRoot
import SharedMind.Projection.Pack
import SharedMind.Py.JsonBytes

/-!
# The requirement a context budget error reports

The reported size states the budget it did not fit, so that it depends on the digits of that budget.

* `Pack.size_add`: what the numbers of a pack add to its size.
* `refreshTruncation_eq`: the size is always found.
* `buildContextPack_eq`: **a pack is built exactly when the mandatory one fits the budget.**
* `RequirementFits`: the requirement has no more digits than were printed for the failing budget.
* `required_budget_suffices_iff`: **the reported requirement is sufficient exactly then.**
* `requirement_of_one_byte_insufficient`: a budget of one byte reports too little.
-/

namespace SharedMind.Projection

open Py SelfSize

/-! ### What the numbers add -/

/-- The digits of a budget, or `null`. -/
def optWidth : Option ℕ → ℕ
  | none => 4
  | some n => width n

theorem bytes_natJson (n : ℕ) : (natJson n).bytes = width n := JsonOf.bytes_nat n

theorem bytes_optNatJson (o : Option ℕ) : (optNatJson o).bytes = optWidth o := by
  cases o with
  | none => decide
  | some n => exact bytes_natJson n

/-- The digits of the budgets and of the size. -/
def Truncation.digits (t : Truncation) : ℕ :=
  width t.budgetBytes + optWidth t.requestedBudgetBytes + optWidth t.requestedBudgetTokens +
    (width t.renderedBytes + width t.estimatedTokens)

/-- The same of the same claims and references, whatever the numbers. -/
structure Truncation.Like (t u : Truncation) : Prop where
  truncated : t.truncated = u.truncated
  includedClaims : t.includedClaims = u.includedClaims
  omittedClaims : t.omittedClaims = u.omittedClaims
  references : t.references = u.references

theorem Truncation.bytes_add {t u : Truncation} (h : t.Like u) :
    t.toJson.bytes + u.digits = u.toJson.bytes + t.digits := by
  obtain ⟨htruncated, hincluded, homitted, hreferences⟩ := h
  rw [toJson, toJson, JsonOf.bytes_obj (List.cons_ne_nil _ _),
    JsonOf.bytes_obj (List.cons_ne_nil _ _), htruncated, hincluded, homitted, hreferences]
  simp only [List.map_cons, List.map_nil, List.sum_cons, List.sum_nil, JsonOf.memberBytes,
    bytes_natJson, bytes_optNatJson, digits]
  omega

/-- A pack with other numbers differs in size by their digits. -/
theorem Pack.size_add (p : Pack) {t : Truncation} (h : p.truncation.Like t) :
    p.size + t.digits = { p with truncation := t }.size + p.truncation.digits := by
  have hbytes := Truncation.bytes_add h
  show p.toJson.bytes + t.digits = ({ p with truncation := t } : Pack).toJson.bytes + _
  rw [toJson, toJson, JsonOf.bytes_obj (List.cons_ne_nil _ _),
    JsonOf.bytes_obj (List.cons_ne_nil _ _)]
  simp only [List.map_cons, List.map_nil, List.sum_cons, List.sum_nil, JsonOf.memberBytes]
  omega

/-! ### The size is found -/

/-- The bytes of a pack without its size. -/
def Pack.bare (p : Pack) : ℕ := (p.sized 0).size - 2

theorem digits_sized (p : Pack) (x : ℕ) : (p.sized x).truncation.digits =
    width p.truncation.budgetBytes + optWidth p.truncation.requestedBudgetBytes +
      optWidth p.truncation.requestedBudgetTokens + sizeAndQuarter x := rfl

theorem Pack.size_sized (p : Pack) (x : ℕ) : (p.sized x).size = p.bare + sizeAndQuarter x := by
  have hadd := (p.sized 0).size_add (t := (p.sized x).truncation) ⟨rfl, rfl, rfl, rfl⟩
  rw [digits_sized, digits_sized] at hadd
  have hzero : sizeAndQuarter 0 = 2 := rfl
  have htwo : 2 ≤ (p.sized 0).size := by
    show 2 ≤ (p.sized 0).toJson.bytes
    rw [toJson, JsonOf.bytes_obj (List.cons_ne_nil _ _), List.map_cons, List.sum_cons,
      JsonOf.memberBytes]
    omega
  have hsame : ({ p.sized 0 with truncation := (p.sized x).truncation } : Pack) = p.sized x := rfl
  rw [hsame] at hadd
  rw [bare]
  omega

/-- The turns of the source are those of the search for the size. -/
theorem setStableRenderedSize_sized (p : Pack) (turns x : ℕ) :
    setStableRenderedSize turns (p.sized x) =
      match settle sizeAndQuarter p.bare turns x with
      | some y => .ok (p.sized y)
      | none => .error (.projectionError "context size metadata did not converge") := by
  induction turns generalizing x with
  | zero => rfl
  | succ turns ih =>
    have hnext : (p.sized x).size = next sizeAndQuarter p.bare x := p.size_sized x
    by_cases hx : next sizeAndQuarter p.bare x = x
    · rw [settle_of_next _ hx, setStableRenderedSize, if_pos]
      rw [hnext, hx]
      exact ⟨rfl, rfl⟩
    · have hne : ¬((p.sized x).truncation.renderedBytes = (p.sized x).size ∧
          (p.sized x).truncation.estimatedTokens = estimatedTokensOf (p.sized x).size) := by
        intro h
        exact hx (hnext.symm.trans h.1.symm)
      rw [setStableRenderedSize, if_neg hne, settle, if_neg hx, hnext]
      exact ih _

/-- The pack with its size stated. -/
def Pack.settled (p : Pack) : Pack := p.sized (stable sizeAndQuarter p.bare)

theorem Pack.size_settled (p : Pack) : p.settled.size = stable sizeAndQuarter p.bare := by
  rw [settled, size_sized, ← stable_eq slow_sizeAndQuarter]

theorem setStableRenderedSize_settled (p : Pack) : setStableRenderedSize 16 p.settled =
    .ok p.settled := by
  rw [setStableRenderedSize, if_pos]
  rw [p.size_settled]
  exact ⟨rfl, rfl⟩

/-- **The size is always found.** -/
theorem refreshTruncation_eq (p : Pack) (budget included : ℕ) :
    refreshTruncation p budget included = .ok (p.described budget included).settled := by
  have hzero : p.described budget included = (p.described budget included).sized 0 := rfl
  rw [refreshTruncation, hzero, setStableRenderedSize_sized, settle_eq slow_sizeAndQuarter _ 11]
  rfl

/-! ### The pack is built -/

/-- The pack `p` with some claims in it. -/
def Pack.holding (p : Pack) (budget : ℕ) (claims : List Json) : Pack :=
  (Pack.described { p with currentClaims := claims } budget claims.length).settled

section

variable (p : Pack) (budget : ℕ)

/-- Other claims take the place of those of a pack. -/
theorem refreshTruncation_holding (claims claims' : List Json) :
    refreshTruncation { p.holding budget claims with currentClaims := claims' } budget
      claims'.length = .ok (p.holding budget claims') :=
  refreshTruncation_eq _ _ _

theorem addClaims_holding (items claims : List Json) : ∃ claims' : List Json,
    addClaims budget items claims.length (p.holding budget claims) =
      .ok (p.holding budget claims', claims'.length) := by
  induction items generalizing claims with
  | nil => exact ⟨claims, rfl⟩
  | cons item items ih =>
    have hgrown := refreshTruncation_holding p budget claims (claims ++ [item])
    have hpop := refreshTruncation_holding p budget (claims ++ [item]) claims
    have hclaims : (p.holding budget (claims ++ [item])).currentClaims.dropLast = claims :=
      List.dropLast_concat
    rw [List.length_append, List.length_singleton] at hgrown
    rw [addClaims]
    change ∃ claims' : List Json, (refreshTruncation { p.holding budget claims with
      currentClaims := claims ++ [item] } _ (claims.length + 1) >>= _) = _
    rw [hgrown, ok_bind]
    by_cases hfits : budget < (p.holding budget (claims ++ [item])).size
    · refine ⟨claims, ?_⟩
      rw [if_pos hfits, hclaims, hpop]
      rfl
    · obtain ⟨claims', h⟩ := ih (claims ++ [item])
      refine ⟨claims', ?_⟩
      rw [List.length_append, List.length_singleton] at h
      rw [if_neg hfits, h]

variable {p budget}

/-- What fits without claims fits once the last claims are dropped. -/
theorem dropClaims_holding (h : (p.holding budget []).size ≤ budget) (turns : ℕ)
    (claims : List Json) (hturns : claims.length = turns) : ∃ claims' : List Json,
    dropClaims budget turns claims.length (p.holding budget claims) =
      .ok (p.holding budget claims') ∧ (p.holding budget claims').size ≤ budget := by
  induction turns generalizing claims with
  | zero =>
    obtain rfl := List.length_eq_zero_iff.mp hturns
    exact ⟨[], rfl, h⟩
  | succ turns ih =>
    have hlength : claims.dropLast.length = claims.length - 1 := List.length_dropLast
    have hpop := refreshTruncation_holding p budget claims claims.dropLast
    rw [hlength] at hpop
    rw [dropClaims]
    by_cases hmore : (p.holding budget claims).currentClaims ≠ [] ∧
        budget < (p.holding budget claims).size
    · rw [if_pos hmore]
      change ∃ claims' : List Json, (refreshTruncation { p.holding budget claims with
        currentClaims := claims.dropLast } _ (claims.length - 1) >>= _) = _ ∧ _
      rw [hpop, ok_bind, ← hlength]
      exact ih claims.dropLast (by omega)
    · refine ⟨claims, if_neg hmore, ?_⟩
      have hne : claims ≠ [] := by
        intro hnil
        rw [hnil] at hturns
        exact nomatch hturns
      by_contra hlarge
      exact hmore ⟨hne, not_le.mp hlarge⟩

theorem refreshTruncation_mandatory (hnone : p.currentClaims = []) :
    refreshTruncation p budget 0 = .ok (p.holding budget []) := by
  have hp : p = { p with currentClaims := [] } := by rw [← hnone]
  rw [hp]
  exact refreshTruncation_eq _ _ _

/-- **A pack that fits without claims is built.** -/
theorem packWithin_ok (hnone : p.currentClaims = []) (h : (p.holding budget []).size ≤ budget) :
    ∃ q, packWithin budget p = .ok q := by
  obtain ⟨claims, hadd⟩ := addClaims_holding p budget p.shown.currentClaims []
  have hagain := refreshTruncation_holding p budget claims claims
  obtain ⟨claims', hdrop, hsize⟩ := dropClaims_holding h claims.length claims rfl
  refine ⟨p.holding budget claims', ?_⟩
  rw [packWithin, refreshTruncation_mandatory hnone, ok_bind, (ensure_eq_ok (u := ())).mpr h,
    ok_bind]
  change (addClaims budget p.shown.currentClaims ([] : List Json).length _ >>= _) = _
  rw [hadd, ok_bind]
  change (refreshTruncation { p.holding budget claims with currentClaims := claims } _ _ >>= _) = _
  rw [hagain, ok_bind]
  change (dropClaims _ claims.length claims.length _ >>= _) = _
  rw [hdrop, ok_bind, (ensure_eq_ok (u := ())).mpr hsize, ok_bind]
  exact setStableRenderedSize_settled _

theorem packWithin_error (hnone : p.currentClaims = [])
    (h : ¬(p.holding budget []).size ≤ budget) : packWithin budget p =
      .error (.contextBudgetError (p.holding budget []).size budget) := by
  rw [packWithin, refreshTruncation_mandatory hnone, ok_bind,
    ensure_eq_error.mpr ⟨h, rfl⟩, error_bind]

end

/-! ### What is required -/

section

variable (shown : ContextProjection) (purpose : Option String)

/-- The bytes of the mandatory pack for a budget of 0 that nobody asked for, with size 0. -/
def mandatoryBytes : ℕ := ((mandatoryPack shown purpose none none).described 0 0).size

/-- How many characters the budgets take. -/
def budgetDigits (budgetBytes budgetTokens : Option ℕ) : ℕ :=
  width (effectiveBudget budgetBytes budgetTokens) + optWidth budgetBytes + optWidth budgetTokens

/-- The bytes of the mandatory pack for some budgets. -/
def required (budgetBytes budgetTokens : Option ℕ) : ℕ :=
  stable sizeAndQuarter (mandatoryBytes shown purpose + budgetDigits budgetBytes budgetTokens - 11)

theorem bare_mandatory (budgetBytes budgetTokens : Option ℕ) :
    ((mandatoryPack shown purpose budgetBytes budgetTokens).described
      (effectiveBudget budgetBytes budgetTokens) 0).bare =
      mandatoryBytes shown purpose + budgetDigits budgetBytes budgetTokens - 11 := by
  obtain ⟨q, hq⟩ : ∃ q, (mandatoryPack shown purpose budgetBytes budgetTokens).described
    (effectiveBudget budgetBytes budgetTokens) 0 = q := ⟨_, rfl⟩
  have hadd := ((mandatoryPack shown purpose none none).described 0 0).size_add
    (t := (q.sized 0).truncation) (by rw [← hq]; exact ⟨rfl, rfl, rfl, rfl⟩)
  have hsame : ({ (mandatoryPack shown purpose none none).described 0 0 with
    truncation := (q.sized 0).truncation } : Pack) = q.sized 0 := by rw [← hq]; rfl
  have hdigits : ((mandatoryPack shown purpose none none).described 0 0).truncation.digits = 11 := by
    show width 0 + 4 + 4 + (width 0 + width 0) = 11
    rfl
  have hq' : (q.sized 0).truncation.digits = budgetDigits budgetBytes budgetTokens + 2 := by
    rw [digits_sized, ← hq]
    rfl
  rw [hsame, hdigits, hq'] at hadd
  rw [hq, Pack.bare, mandatoryBytes]
  omega

/-- The size of the mandatory pack. -/
theorem size_mandatory (budgetBytes budgetTokens : Option ℕ) :
    ((mandatoryPack shown purpose budgetBytes budgetTokens).holding
      (effectiveBudget budgetBytes budgetTokens) []).size =
      required shown purpose budgetBytes budgetTokens := by
  rw [required, ← bare_mandatory]
  exact Pack.size_settled _

end

/-! ### When the requirement is sufficient -/

/-- With half as many digits as the failing budgets take, the mandatory pack has room for its size:
its requirement then has no more digits than are left. -/
def RequirementFits (shown : ContextProjection) (purpose : Option String)
    (budgetBytes budgetTokens : Option ℕ) : Prop :=
  let half := (budgetDigits budgetBytes budgetTokens - 4) / 2
  mandatoryBytes shown purpose + budgetDigits budgetBytes budgetTokens + 2 * half < 10 ^ half + 11

/-- A size states itself in twice as many digits. -/
theorem sizeAndQuarter_le {j s : ℕ} (hj : 0 < j) (hs : s < 10 ^ j) : sizeAndQuarter s ≤ 2 * j := by
  have hsize := (width_le_iff hj).mpr hs
  have hquarter : width ((s + 3) / 4) ≤ width s := by
    by_cases hzero : s = 0
    · rw [hzero]
    · exact width_mono (by omega)
  rw [sizeAndQuarter]
  omega

theorem le_width {j s : ℕ} (h : 10 ^ j ≤ s) : j + 1 ≤ width s := by
  by_contra hlt
  by_cases hj : j = 0
  · exact hlt (hj ▸ width_pos s)
  · exact absurd ((width_le_iff (Nat.pos_of_ne_zero hj)).mp (by omega)) (not_lt.mpr h)

theorem le_sizeAndQuarter {j s : ℕ} (h : 4 * 10 ^ j ≤ s + 3) :
    2 * (j + 1) ≤ sizeAndQuarter s := by
  have hpow : 0 < 10 ^ j := Nat.pow_pos (by decide)
  have hquarter := le_width (j := j) (s := (s + 3) / 4) (by omega)
  have hsize := le_width (j := j) (s := s) (by omega)
  rw [sizeAndQuarter]
  omega

/-- When a size has at most `j` digits. -/
theorem stable_lt_pow_iff {k j : ℕ} :
    stable sizeAndQuarter k < 10 ^ (j + 1) ↔ k + 2 * (j + 1) < 10 ^ (j + 1) := by
  have heq := stable_eq slow_sizeAndQuarter k
  refine ⟨fun h => ?_, fun h => ?_⟩
  · by_contra hlarge
    have hpow : j < 10 ^ j := Nat.lt_pow_self (by decide)
    have hten : 10 ^ (j + 1) = 10 * 10 ^ j := by rw [pow_succ, mul_comm]
    have hdigits := le_sizeAndQuarter (j := j) (s := stable sizeAndQuarter k) (by omega)
    omega
  · have hdigits := sizeAndQuarter_le (j := j + 1) (s := 10 ^ (j + 1) - 1) (by omega) (by omega)
    have hle : stable sizeAndQuarter k ≤ 10 ^ (j + 1) - 1 := by
      apply stable_le_of_next_le slow_sizeAndQuarter
      rw [next]
      omega
    omega

theorem budgetDigits_bytes (n : ℕ) : budgetDigits (some n) none = 2 * width n + 4 := by
  show width n + width n + 4 = _
  omega

theorem three_le_budgetDigits (budgetBytes budgetTokens : Option ℕ) :
    3 ≤ budgetDigits budgetBytes budgetTokens := by
  have hopt : ∀ o : Option ℕ, 1 ≤ optWidth o := fun o => by
    cases o with
    | none => decide
    | some n => exact width_pos n
  have hbytes := hopt budgetBytes
  have htokens := hopt budgetTokens
  have hbudget := width_pos (effectiveBudget budgetBytes budgetTokens)
  rw [budgetDigits]
  omega

theorem mandatoryBytes_large (shown : ContextProjection) (purpose : Option String) :
    25 ≤ mandatoryBytes shown purpose := by
  show 25 ≤ ((mandatoryPack shown purpose none none).described 0 0).toJson.bytes
  rw [Pack.toJson, JsonOf.bytes_obj (List.cons_ne_nil _ _)]
  simp only [List.map_cons, List.map_nil, List.sum_cons, List.sum_nil, JsonOf.memberBytes]
  omega

/-- **When the requirement fits into itself.** -/
theorem required_le_iff (shown : ContextProjection) (purpose : Option String)
    (budgetBytes budgetTokens : Option ℕ) :
    required shown purpose (some (required shown purpose budgetBytes budgetTokens)) none ≤
      required shown purpose budgetBytes budgetTokens ↔
      RequirementFits shown purpose budgetBytes budgetTokens := by
  obtain ⟨n, hn⟩ : ∃ n, required shown purpose budgetBytes budgetTokens = n := ⟨_, rfl⟩
  obtain ⟨c, hc⟩ : ∃ c, budgetDigits budgetBytes budgetTokens = c := ⟨_, rfl⟩
  obtain ⟨m, hm⟩ : ∃ m, mandatoryBytes shown purpose = m := ⟨_, rfl⟩
  have hthree := three_le_budgetDigits budgetBytes budgetTokens
  have hlarge := mandatoryBytes_large shown purpose
  rw [hc] at hthree
  rw [hm] at hlarge
  have hstable : stable sizeAndQuarter (m + c - 11) = n := by rw [← hn, ← hc, ← hm, required]
  -- the second pack differs from the first one by the digits of its budgets
  have hfewer : required shown purpose (some n) none ≤ n ↔ 2 * width n + 4 ≤ c := by
    have hsecond : required shown purpose (some n) none =
        stable sizeAndQuarter (m + (2 * width n + 4) - 11) := by
      rw [required, budgetDigits_bytes, hm]
    rw [hsecond]
    have hiff := stable_le_iff slow_sizeAndQuarter (k := m + (2 * width n + 4) - 11)
      (l := m + c - 11)
    rw [hstable] at hiff
    rw [hiff]
    omega
  rw [hn, hfewer, RequirementFits, hc, hm]
  cases hhalf : (c - 4) / 2 with
  | zero =>
    have hpos := width_pos n
    omega
  | succ j =>
    have hpow := stable_lt_pow_iff (k := m + c - 11) (j := j)
    rw [hstable] at hpow
    have hwidth := width_le_iff (n := n) (Nat.succ_pos j)
    have hiff : 2 * width n + 4 ≤ c ↔ width n ≤ j + 1 := by omega
    rw [hiff, hwidth, hpow]
    omega

/-! ### The second call -/

section

variable {shown : ContextProjection} {purpose : Option String} {bytes tokens : Option ℤ}
  {budgetBytes budgetTokens : Option ℕ}

theorem positiveBudget_eq_ok {name : String} (h : positiveBudget name bytes = .ok budgetBytes) :
    budgetBytes = bytes.map Int.toNat := by
  cases bytes with
  | none => exact (Except.ok.inj h).symm
  | some value =>
    rw [positiveBudget, bind_eq_ok] at h
    obtain ⟨-, -, h⟩ := h
    exact (Except.ok.inj h).symm

theorem positiveBudget_ne_contextBudgetError {name : String} {n budget : ℕ} :
    positiveBudget name bytes ≠ .error (.contextBudgetError n budget) := by
  intro h
  cases bytes with
  | none => exact nomatch h
  | some value =>
    rw [positiveBudget, bind_eq_error] at h
    obtain h | ⟨-, -, h⟩ := h
    · exact nomatch (ensure_eq_error.mp h).2
    · exact nomatch h

/-- What is built, for arguments that are accepted. -/
theorem buildContextPack_eq (hpurpose : ∀ text ∈ purpose, isBlank text = false)
    (hbytes : positiveBudget "budget_bytes" bytes = .ok budgetBytes)
    (htokens : positiveBudget "budget_tokens" tokens = .ok budgetTokens) :
    buildContextPack shown bytes tokens purpose =
      packWithin (effectiveBudget budgetBytes budgetTokens)
        (mandatoryPack shown purpose budgetBytes budgetTokens) := by
  rw [buildContextPack, (ensure_eq_ok (u := ())).mpr hpurpose, ok_bind, hbytes, ok_bind, htokens,
    ok_bind]

/-- **A pack is built exactly when what is required is within the budget.** -/
theorem buildContextPack_ok_iff (hpurpose : ∀ text ∈ purpose, isBlank text = false)
    (hbytes : positiveBudget "budget_bytes" bytes = .ok budgetBytes)
    (htokens : positiveBudget "budget_tokens" tokens = .ok budgetTokens) :
    (∃ p, buildContextPack shown bytes tokens purpose = .ok p) ↔
      required shown purpose budgetBytes budgetTokens ≤
        effectiveBudget budgetBytes budgetTokens := by
  rw [buildContextPack_eq hpurpose hbytes htokens, ← size_mandatory]
  refine ⟨fun ⟨p, hp⟩ => ?_, packWithin_ok rfl⟩
  by_contra hlarge
  rw [packWithin_error rfl hlarge] at hp
  exact nomatch hp

/-- What a budget error reports. -/
theorem buildContextPack_error {n budget : ℕ}
    (h : buildContextPack shown bytes tokens purpose = .error (.contextBudgetError n budget)) :
    (∀ text ∈ purpose, isBlank text = false) ∧
      n = required shown purpose (bytes.map Int.toNat) (tokens.map Int.toNat) ∧ budget < n := by
  rw [buildContextPack, bind_eq_error] at h
  obtain h | ⟨u, hpurpose, h⟩ := h
  · exact nomatch (ensure_eq_error.mp h).2
  have hpurpose := ensure_eq_ok.mp hpurpose
  rw [bind_eq_error] at h
  obtain h | ⟨budgetBytes, hbytes, h⟩ := h
  · exact absurd h positiveBudget_ne_contextBudgetError
  rw [bind_eq_error] at h
  obtain h | ⟨budgetTokens, htokens, h⟩ := h
  · exact absurd h positiveBudget_ne_contextBudgetError
  rw [← positiveBudget_eq_ok hbytes, ← positiveBudget_eq_ok htokens]
  by_cases hfits : ((mandatoryPack shown purpose budgetBytes budgetTokens).holding
      (effectiveBudget budgetBytes budgetTokens) []).size ≤
        effectiveBudget budgetBytes budgetTokens
  · obtain ⟨p, hp⟩ := packWithin_ok rfl hfits
    rw [hp] at h
    exact nomatch h
  · rw [packWithin_error rfl hfits] at h
    obtain ⟨rfl, rfl⟩ := PackExc.contextBudgetError.inj (Except.error.inj h)
    exact ⟨hpurpose, size_mandatory _ _ _ _, not_le.mp hfits⟩

/-- A second call with the requirement as its budget. -/
theorem second_call_ok_iff {n budget : ℕ}
    (h : buildContextPack shown bytes tokens purpose = .error (.contextBudgetError n budget)) :
    (∃ p, buildContextPack shown (some n) none purpose = .ok p) ↔
      RequirementFits shown purpose (bytes.map Int.toNat) (tokens.map Int.toNat) := by
  obtain ⟨hpurpose, hn, hlarge⟩ := buildContextPack_error h
  have hpos : (0 : ℤ) < n := Int.natCast_pos.mpr (Nat.zero_lt_of_lt hlarge)
  have hbytes : positiveBudget "budget_bytes" (some (n : ℤ)) = .ok (some n) := by
    rw [positiveBudget, (ensure_eq_ok (u := ())).mpr hpos]
    rfl
  rw [buildContextPack_ok_iff hpurpose hbytes rfl, ← required_le_iff, ← hn]
  rfl

/-- A budget of one byte is never enough. -/
theorem one_byte_error (hpurpose : ∀ text ∈ purpose, isBlank text = false) :
    buildContextPack shown (some 1) none purpose =
      .error (.contextBudgetError (required shown purpose (some 1) none) 1) := by
  have hlarge := mandatoryBytes_large shown purpose
  have hsize := size_mandatory shown purpose (some 1) none
  have heq := stable_eq slow_sizeAndQuarter
    (mandatoryBytes shown purpose + budgetDigits (some 1) none - 11)
  have hmany : ¬((mandatoryPack shown purpose (some 1) none).holding
      (effectiveBudget (some 1) none) []).size ≤ effectiveBudget (some 1) none := by
    show ¬_ ≤ 1
    rw [hsize, required]
    omega
  have hone : positiveBudget "budget_bytes" (some 1) = .ok (some 1) := rfl
  rw [buildContextPack_eq hpurpose hone rfl, packWithin_error rfl hmany, hsize]
  rfl

end

/-- **The reported requirement is sufficient exactly when it fits the digits of the failing
budgets.** -/
theorem required_budget_suffices_iff {shown : ContextProjection} {purpose : Option String}
    {bytes tokens : Option ℤ} {n budget : ℕ}
    (h : buildContextPack shown bytes tokens purpose = .error (.contextBudgetError n budget)) :
    (∃ p, buildContextPack shown (some n) none purpose = .ok p) ↔
      RequirementFits shown purpose (bytes.map Int.toNat) (tokens.map Int.toNat) :=
  second_call_ok_iff h

/-- What a new database shows. -/
def newProjection : ContextProjection :=
  ⟨"markdown-projection@3", 0, stateRoot Db.empty, [], [], [], [], []⟩

theorem one_byte_new : buildContextPack newProjection (some 1) none none =
    .error (.contextBudgetError (required newProjection none (some 1) none) 1) :=
  one_byte_error fun _ h => nomatch h

theorem requirement_of_one_byte : ∃ n, (buildContextPack newProjection (some 1) none none =
      .error (.contextBudgetError n 1)) ∧
    ((∃ p, buildContextPack newProjection (some n) none none = .ok p) ↔
      RequirementFits newProjection none (some 1) none) :=
  ⟨_, one_byte_new, required_budget_suffices_iff one_byte_new⟩

/-- A budget of one byte reports a requirement that is not sufficient. -/
theorem requirement_of_one_byte_insufficient : ∃ n,
    buildContextPack newProjection (some 1) none none = .error (.contextBudgetError n 1) ∧
    ∀ p, buildContextPack newProjection (some n) none none ≠ .ok p := by
  refine ⟨_, one_byte_new, ?_⟩
  intro p hp
  have hfits := (second_call_ok_iff one_byte_new).mp ⟨p, hp⟩
  have hlarge := mandatoryBytes_large newProjection none
  have hdigits : budgetDigits (some 1) none = 6 := rfl
  rw [show (some (1 : ℤ)).map Int.toNat = some 1 from rfl,
    show (none : Option ℤ).map Int.toNat = none from rfl, RequirementFits, hdigits] at hfits
  omega

end SharedMind.Projection
