import SharedMind.Py.JsonText

/-!
# Reading back what was printed

`loads_dumps`: on a value whose dicts are listed in key order, `loads` inverts
`dumps`.  The printed form of a value is self-delimiting except for a number,
which ends where no further character of a number follows (`NumEnd`); strings
are read back character by character through `escapeChar`, decimals through
`Decimal.ofParts_mul_pow`.
-/

namespace Py

/-! ### Strings -/

theorem hexValue?_digitChar : ∀ n < 16, hexValue? (Nat.digitChar n) = some n := by
  decide

theorem charOf?_toNat (c : Char) : charOf? c.toNat = some c := by
  have h : c.toNat.isValidChar := c.valid
  rw [charOf?, dif_pos h]
  simp only [Option.some.injEq]
  apply Char.ext
  exact UInt32.toNat_inj.mp rfl

theorem readEscape_hex {a b c d : Char} {n : Nat} (h : hex4? a b c d = some n) (hn : n < 0xD800)
    (t : List Char) :
    readEscape ('u' :: a :: b :: c :: d :: t) = (charOf? n).map (fun x => (x, t)) := by
  unfold readEscape
  split
  · next heq =>
    simp only [List.cons.injEq, true_and] at heq
    obtain ⟨rfl, rfl, rfl, rfl, rfl⟩ := heq
    rw [h]
    simp only [Option.bind_eq_bind, Option.bind_some]
    rw [if_neg (by omega)]
    cases charOf? n <;> simp
  · next heq =>
    simp only [List.cons.injEq, true_and] at heq
    obtain ⟨rfl, rfl, rfl, rfl, rfl⟩ := heq
    rw [h]
    simp only [Option.bind_eq_bind, Option.bind_some]
    cases charOf? n <;> rfl
  · next heq => simp at heq
  · next heq => simp at heq
  · next heq => simp at heq
  · next heq => simp at heq
  · next heq => simp at heq
  · next hshort _ _ _ _ _ heq =>
    simp only [List.cons.injEq] at heq
    exact absurd heq.2.symm (hshort a b c d t heq.1.symm)
  · next heq => simp at heq

theorem readString_escapeChar (c : Char) (fuel : Nat) (t : List Char) :
    readString (fuel + 1) (escapeChar c ++ t) =
      (readString fuel t).map fun p => (c :: p.1, p.2) := by
  have hback : ∀ e, readEscape e = some (c, t) → readString (fuel + 1) ('\\' :: e) =
      (readString fuel t).map fun p => (c :: p.1, p.2) := by
    intro e he
    rw [readString, if_neg (by decide), if_pos rfl, he]
    simp only [Option.bind_eq_bind, Option.bind_some]
    cases readString fuel t <;> rfl
  rw [escapeChar]
  split_ifs with h1 h2 h3 h4 h5 h6 h7 h8
  · subst h1; exact hback _ rfl
  · subst h2; exact hback _ rfl
  · subst h3; exact hback _ rfl
  · subst h4; exact hback _ rfl
  · subst h5; exact hback _ rfl
  · subst h6; exact hback _ rfl
  · subst h7; exact hback _ rfl
  · refine hback ('u' :: '0' :: '0' :: Nat.digitChar (c.toNat / 16) ::
      Nat.digitChar (c.toNat % 16) :: t) ?_
    have hhex : hex4? '0' '0' (Nat.digitChar (c.toNat / 16)) (Nat.digitChar (c.toNat % 16)) =
        some c.toNat := by
      rw [hex4?, hexValue?_digitChar _ (by omega), hexValue?_digitChar _ (by omega),
        show hexValue? '0' = some 0 by decide]
      simp only [Option.bind_eq_bind, Option.bind_some, Option.pure_def, Option.some.injEq]
      omega
    rw [readEscape_hex hhex (by omega), charOf?_toNat]
    rfl
  · rw [List.singleton_append, readString, if_neg h1, if_neg h2, if_neg h8]
    cases readString fuel t <;> rfl

theorem readString_quote (s : List Char) : ∀ (fuel : Nat) (r : List Char), s.length < fuel →
    readString fuel (s.flatMap escapeChar ++ '"' :: r) = some (s, r) := by
  induction s with
  | nil =>
    intro fuel r h
    obtain ⟨fuel, rfl⟩ : ∃ k, fuel = k + 1 := ⟨fuel - 1, by simp at h; omega⟩
    rw [List.flatMap_nil, List.nil_append, readString, if_pos rfl]
  | cons c s ih =>
    intro fuel r h
    simp only [List.length_cons] at h
    obtain ⟨fuel, rfl⟩ : ∃ k, fuel = k + 1 := ⟨fuel - 1, by omega⟩
    rw [List.flatMap_cons, List.append_assoc, readString_escapeChar, ih fuel r (by omega)]
    rfl

theorem length_le_flatMap_escapeChar (s : List Char) :
    s.length ≤ (s.flatMap escapeChar).length := by
  induction s with
  | nil => simp
  | cons c s ih =>
    have hc : 1 ≤ (escapeChar c).length := by
      rw [escapeChar]
      split_ifs <;> simp
    simp only [List.flatMap_cons, List.length_append, List.length_cons]
    omega

/-! ### Digits -/

/-- No character of a number follows. -/
def NumEnd (r : List Char) : Prop :=
  ∀ c t, r = c :: t → c.isDigit = false ∧ c ≠ '.' ∧ c ≠ 'e' ∧ c ≠ 'E'

/-- No digit follows. -/
def DigitEnd (r : List Char) : Prop := ∀ c t, r = c :: t → c.isDigit = false

theorem NumEnd.digitEnd {r : List Char} (h : NumEnd r) : DigitEnd r :=
  fun c t hr => (h c t hr).1

theorem numEnd_nil : NumEnd [] := fun _ _ h => by simp at h

theorem numEnd_cons {c : Char} {t : List Char} (h : c.isDigit = false ∧ c ≠ '.' ∧ c ≠ 'e' ∧ c ≠ 'E') :
    NumEnd (c :: t) := by
  intro c' t' heq
  simp only [List.cons.injEq] at heq
  obtain ⟨rfl, rfl⟩ := heq
  exact h

theorem takeWhile_digits {ds r : List Char} (hd : ∀ c ∈ ds, c.isDigit = true) (hr : DigitEnd r) :
    (ds ++ r).takeWhile Char.isDigit = ds := by
  induction ds with
  | nil =>
    cases r with
    | nil => rfl
    | cons c t => rw [List.nil_append, List.takeWhile_cons, hr c t rfl]; rfl
  | cons c ds ih =>
    rw [List.cons_append, List.takeWhile_cons, if_pos (hd c (by simp)),
      ih (fun c hc => hd c (List.mem_cons_of_mem _ hc))]

theorem dropWhile_digits {ds r : List Char} (hd : ∀ c ∈ ds, c.isDigit = true) (hr : DigitEnd r) :
    (ds ++ r).dropWhile Char.isDigit = r := by
  induction ds with
  | nil =>
    cases r with
    | nil => rfl
    | cons c t => rw [List.nil_append, List.dropWhile_cons, hr c t rfl]; rfl
  | cons c ds ih =>
    rw [List.cons_append, List.dropWhile_cons, if_pos (hd c (by simp)),
      ih (fun c hc => hd c (List.mem_cons_of_mem _ hc))]

theorem isDigit_toDigits {n : Nat} : ∀ c ∈ Nat.toDigits 10 n, c.isDigit = true :=
  fun _ hc => Nat.isDigit_of_mem_toDigits (by decide) (by decide) hc

theorem isDigit_replicate_zero (k : Nat) : ∀ c ∈ List.replicate k '0', c.isDigit = true := by
  intro c hc
  rw [List.eq_of_mem_replicate hc]
  decide

/-- A numeral has no leading zero unless it is `0`. -/
theorem toDigits_head {n : Nat} (hn : n ≠ 0) : ∃ c t, Nat.toDigits 10 n = c :: t ∧ c ≠ '0' := by
  induction n using Nat.strong_induction_on with
  | _ n ih =>
    by_cases h10 : n < 10
    · rw [Nat.toDigits_of_lt_base h10]
      refine ⟨_, [], rfl, ?_⟩
      have key : ∀ m < 10, m ≠ 0 → Nat.digitChar m ≠ '0' := by decide
      exact key n h10 hn
    · obtain ⟨c, t, hc, h0⟩ := ih (n / 10) (by omega) (by omega)
      rw [Nat.toDigits_of_base_le (by decide) (by omega), hc]
      exact ⟨c, t ++ [Nat.digitChar (n % 10)], rfl, h0⟩

/-! ### Decimals -/

theorem stripZeros_mul_pow {m : Nat} (hm : m % 10 ≠ 0) : ∀ (k fuel : Nat) (e : Int), k ≤ fuel →
    stripZeros fuel (m * 10 ^ k) e = (m, e + k) := by
  intro k
  induction k with
  | zero =>
    intro fuel e _
    cases fuel with
    | zero => simp [stripZeros]
    | succ fuel => rw [stripZeros, pow_zero, mul_one, if_neg hm]; simp
  | succ k ih =>
    intro fuel e hf
    obtain ⟨fuel, rfl⟩ : ∃ j, fuel = j + 1 := ⟨fuel - 1, by omega⟩
    have h10 : m * 10 ^ (k + 1) = 10 * (m * 10 ^ k) := by ring
    rw [stripZeros, h10, if_pos (by omega), Nat.mul_div_cancel_left _ (by decide),
      ih fuel (e + 1) (by omega)]
    simp only [Prod.mk.injEq, true_and]
    push_cast
    ring

/-- Writing out trailing zeros of a decimal does not change it. -/
theorem Decimal.ofParts_mul_pow (d : Decimal) (k : Nat) (e : Int) (he : e + k = d.exp) :
    Decimal.ofParts (d.digits * 10 ^ k) e = d := by
  obtain ⟨m, x, hcanon⟩ := d
  simp only at he ⊢
  by_cases hm : m = 0
  · subst hm
    have hx : x = 0 := by
      rcases hcanon with h | h
      · simp at h
      · exact h.2
    subst hx
    rw [ofParts, dif_pos (by simp)]
  · have hm10 : m % 10 ≠ 0 := by
      rcases hcanon with h | h
      · exact h
      · exact absurd h.1 hm
    have hpos : 0 < 10 ^ k := by positivity
    have hne : m * 10 ^ k ≠ 0 := Nat.mul_ne_zero hm hpos.ne'
    have hk : k ≤ m * 10 ^ k :=
      le_trans (Nat.lt_pow_self (by decide)).le (Nat.le_mul_of_pos_left _ (Nat.pos_of_ne_zero hm))
    rw [ofParts, dif_neg hne]
    simp only [Decimal.mk.injEq]
    rw [stripZeros_mul_pow hm10 k _ e hk]
    exact ⟨rfl, he⟩

/-! ### Numbers -/

theorem readExponent_numEnd {r : List Char} (h : NumEnd r) : readExponent r = none := by
  cases r with
  | nil => rfl
  | cons c t =>
    obtain ⟨_, _, he, hE⟩ := h c t rfl
    rw [readExponent, if_neg (by tauto)]

theorem readFraction_numEnd {r : List Char} (h : NumEnd r) : readFraction r = ([], r) := by
  cases r with
  | nil => rfl
  | cons c t =>
    obtain ⟨_, hdot, _, _⟩ := h c t rfl
    rw [readFraction]
    intro r' heq
    simp only [List.cons.injEq] at heq
    exact absurd heq.1 hdot

theorem readFraction_digits {ds r : List Char} (hne : ds ≠ [])
    (hd : ∀ c ∈ ds, c.isDigit = true) (hr : DigitEnd r) :
    readFraction ('.' :: (ds ++ r)) = (ds, r) := by
  rw [readFraction, takeWhile_digits hd hr, dropWhile_digits hd hr, if_neg (by simpa using hne)]

/-- The whole part of a number: `0`, or digits without a leading zero. -/
def Whole (ds : List Char) : Prop :=
  ds = ['0'] ∨ (∀ c ∈ ds, c.isDigit = true) ∧ ∃ c t, ds = c :: t ∧ c ≠ '0'

theorem whole_toDigits (n : Nat) : Whole (Nat.toDigits 10 n) := by
  by_cases hn : n = 0
  · subst hn
    exact Or.inl (Nat.toDigits_zero 10)
  · exact Or.inr ⟨isDigit_toDigits, toDigits_head hn⟩

theorem wholePart_append {ds r : List Char} (hw : Whole ds) (hr : DigitEnd r) :
    wholePart (ds ++ r) = ds := by
  rcases hw with rfl | ⟨hd, c, t, rfl, h0⟩
  · rfl
  · rw [wholePart, takeWhile_digits hd hr]
    intro r' heq
    simp only [List.cons_append, List.cons.injEq] at heq
    exact h0 heq.1

theorem Whole.ne_nil {ds : List Char} (hw : Whole ds) : ds ≠ [] := by
  rcases hw with rfl | ⟨_, c, t, rfl, _⟩ <;> simp

/-- A number is read as its whole part, its fraction and its exponent. -/
theorem readUnsigned_append {neg : Bool} {ds r : List Char} (hw : Whole ds) (hr : DigitEnd r) :
    readUnsigned neg (ds ++ r) =
      match readExponent (readFraction r).2 with
      | some (e, r') => some (.float (.finite neg (.ofParts
          (Nat.ofDigitChars 10 (ds ++ (readFraction r).1) 0) (e - (readFraction r).1.length))), r')
      | none =>
        if (readFraction r).1.isEmpty then
          some (.int (if neg then -(Nat.ofDigitChars 10 (ds ++ (readFraction r).1) 0 : Int)
            else (Nat.ofDigitChars 10 (ds ++ (readFraction r).1) 0 : Int)), (readFraction r).2)
        else some (.float (.finite neg (.ofParts
          (Nat.ofDigitChars 10 (ds ++ (readFraction r).1) 0) (-(readFraction r).1.length))),
            (readFraction r).2) := by
  rw [readUnsigned]
  simp only [wholePart_append hw hr, List.drop_left]
  exact if_neg (by simpa using hw.ne_nil)

theorem digitEnd_cons {c : Char} {t : List Char} (h : c.isDigit = false) : DigitEnd (c :: t) := by
  intro c' t' heq
  simp only [List.cons.injEq] at heq
  rw [← heq.1]
  exact h

/-- Digits, a point and digits read as the decimal they spell. -/
theorem readUnsigned_point (neg : Bool) (ds frac r : List Char) (d : Decimal) (k : Nat)
    (hw : Whole ds) (hf : ∀ c ∈ frac, c.isDigit = true) (hne : frac ≠ []) (hr : NumEnd r)
    (hval : Nat.ofDigitChars 10 (ds ++ frac) 0 = d.digits * 10 ^ k)
    (hexp : -(frac.length : Int) + k = d.exp) :
    readUnsigned neg (ds ++ '.' :: (frac ++ r)) = some (.float (.finite neg d), r) := by
  rw [readUnsigned_append hw (digitEnd_cons (by decide)), readFraction_digits hne hf hr.digitEnd]
  simp only [readExponent_numEnd hr]
  rw [if_neg (by simpa using hne), hval, Decimal.ofParts_mul_pow d k _ hexp]

/-- The printed exponent is read back. -/
theorem readExponent_text (e : Int) {r : List Char} (hr : DigitEnd r) :
    readExponent (exponentText e ++ r) = some (e, r) := by
  have hval : ∀ es, (es = '0' :: Nat.toDigits 10 e.natAbs ∨ es = Nat.toDigits 10 e.natAbs) →
      (∀ c ∈ es, c.isDigit = true) ∧ es ≠ [] ∧ Nat.ofDigitChars 10 es 0 = e.natAbs := by
    rintro es (rfl | rfl)
    · refine ⟨?_, by simp, ?_⟩
      · intro c hc
        rcases List.mem_cons.mp hc with rfl | hc
        · decide
        · exact isDigit_toDigits c hc
      · rw [Nat.ofDigitChars_cons]
        exact Nat.ofDigitChars_ten_toDigits
    · exact ⟨isDigit_toDigits, Nat.toDigits_ne_nil, Nat.ofDigitChars_ten_toDigits⟩
  rw [exponentText]
  obtain ⟨hd, hne, hv⟩ := hval (if (Nat.toDigits 10 e.natAbs).length = 1
    then '0' :: Nat.toDigits 10 e.natAbs else Nat.toDigits 10 e.natAbs) (by split_ifs <;> simp)
  generalize (if (Nat.toDigits 10 e.natAbs).length = 1
    then '0' :: Nat.toDigits 10 e.natAbs else Nat.toDigits 10 e.natAbs) = es at hd hne hv ⊢
  have hsign : readSign ((if e < 0 then '-' else '+') :: (es ++ r)) = (decide (e < 0), es ++ r) := by
    by_cases he : e < 0
    · rw [if_pos he, readSign, decide_eq_true he]
    · rw [if_neg he, readSign, decide_eq_false he]
  rw [List.cons_append, List.cons_append, readExponent, if_pos (Or.inl rfl), hsign]
  simp only [takeWhile_digits hd hr, dropWhile_digits hd hr, hv]
  rw [if_neg (by simpa using hne)]
  simp only [decide_eq_true_eq, Option.some.injEq, Prod.mk.injEq, and_true]
  split_ifs <;> omega

theorem digitEnd_exponentText (e : Int) (r : List Char) : DigitEnd (exponentText e ++ r) :=
  digitEnd_cons (by decide)

/-- A digit, maybe a fraction, and an exponent read as the decimal they spell. -/
theorem readUnsigned_exponent (neg : Bool) {c : Char} {t : List Char} (r : List Char) {d : Decimal}
    (e : Int)
    (hds : Nat.toDigits 10 d.digits = c :: t) (hr : NumEnd r) (hexp : e - t.length = d.exp) :
    readUnsigned neg ([c] ++ ((if t = [] then [] else '.' :: t) ++ (exponentText e ++ r))) =
      some (.float (.finite neg d), r) := by
  have hall : ∀ x ∈ c :: t, x.isDigit = true := by rw [← hds]; exact isDigit_toDigits
  have hw : Whole [c] := by
    by_cases hc : c = '0'
    · subst hc; exact Or.inl rfl
    · exact Or.inr ⟨fun x hx => hall x (by simp_all), c, [], rfl, hc⟩
  have hval : Nat.ofDigitChars 10 (c :: t) 0 = d.digits := by
    rw [← hds]
    exact Nat.ofDigitChars_ten_toDigits
  have hparts : Decimal.ofParts d.digits (e - t.length) = d := by
    have := Decimal.ofParts_mul_pow d 0 (e - t.length) (by simpa using hexp)
    simpa using this
  have hend := digitEnd_exponentText e r
  by_cases ht : t = []
  · subst ht
    have hfrac : readFraction (exponentText e ++ r) = ([], exponentText e ++ r) := by
      rw [exponentText, List.cons_append, readFraction]
      intro r' heq
      simp at heq
    rw [if_pos rfl, List.nil_append, readUnsigned_append hw hend, hfrac]
    simp only [readExponent_text e hr.digitEnd, List.append_nil, hval]
    rw [hparts]
  · have hcons : '.' :: t ++ (exponentText e ++ r) = '.' :: (t ++ (exponentText e ++ r)) := rfl
    rw [if_neg ht, hcons, readUnsigned_append hw (digitEnd_cons (by decide)),
      readFraction_digits ht (fun x hx => hall x (List.mem_cons_of_mem _ hx)) hend]
    simp only [readExponent_text e hr.digitEnd, List.singleton_append, hval]
    rw [hparts]

theorem readUnsigned_decimal (neg : Bool) (d : Decimal) {r : List Char} (hr : NumEnd r) :
    readUnsigned neg (d.text ++ r) = some (.float (.finite neg d), r) := by
  have hds := @isDigit_toDigits d.digits
  have hlen : 0 < (Nat.toDigits 10 d.digits).length := Nat.length_toDigits_pos
  have hval : Nat.ofDigitChars 10 (Nat.toDigits 10 d.digits) 0 = d.digits :=
    Nat.ofDigitChars_ten_toDigits
  rw [Decimal.text]
  split_ifs with h1 h2 h3
  · -- `0.000ddd`
    have := readUnsigned_point neg ['0']
      (List.replicate (-((Nat.toDigits 10 d.digits).length + d.exp)).toNat '0' ++
        Nat.toDigits 10 d.digits) r d 0 (Or.inl rfl) ?_ ?_ hr ?_ ?_
    · simpa using this
    · intro c hc
      rcases List.mem_append.mp hc with hc | hc
      · exact isDigit_replicate_zero _ c hc
      · exact hds c hc
    · simp [List.ne_nil_of_length_pos hlen]
    · rw [← List.append_assoc, Nat.ofDigitChars_append]
      have hz : Nat.ofDigitChars 10 (['0'] ++
          List.replicate (-((Nat.toDigits 10 d.digits).length + d.exp)).toNat '0') 0 = 0 := by
        rw [Nat.ofDigitChars_append, Nat.ofDigitChars_replicate_zero]
        simp [Nat.ofDigitChars]
      rw [hz, hval, pow_zero, mul_one]
    · simp only [List.length_append, List.length_replicate]
      push_cast
      omega
  · -- `dd.ddd`
    have hp : ((Nat.toDigits 10 d.digits).length + d.exp).toNat <
        (Nat.toDigits 10 d.digits).length := by omega
    have := readUnsigned_point neg
      ((Nat.toDigits 10 d.digits).take ((Nat.toDigits 10 d.digits).length + d.exp).toNat)
      ((Nat.toDigits 10 d.digits).drop ((Nat.toDigits 10 d.digits).length + d.exp).toNat)
      r d 0 ?_ ?_ ?_ hr ?_ ?_
    · simpa using this
    · have hne : d.digits ≠ 0 := by
        intro h0
        have hlt := hp
        rw [h0, Nat.toDigits_zero] at hlt
        rw [h0, Nat.toDigits_zero] at h2
        simp only [List.length_singleton] at hlt h2
        omega
      obtain ⟨c, t, hc, h0⟩ := toDigits_head hne
      refine Or.inr ⟨fun x hx => hds x (List.mem_of_mem_take hx), c,
        t.take (((Nat.toDigits 10 d.digits).length + d.exp).toNat - 1), ?_, h0⟩
      rw [hc] at h2 ⊢
      obtain ⟨j, hj⟩ : ∃ j, (((c :: t).length : Int) + d.exp).toNat = j + 1 :=
        ⟨(((c :: t).length : Int) + d.exp).toNat - 1, by omega⟩
      rw [hj, List.take_succ_cons, Nat.add_sub_cancel]
    · exact fun x hx => hds x (List.mem_of_mem_drop hx)
    · simp only [ne_eq, List.drop_eq_nil_iff]
      omega
    · rw [List.take_append_drop, hval, pow_zero, mul_one]
    · simp only [List.length_drop]
      omega
  · -- `ddd000.0`
    have := readUnsigned_point neg
      (Nat.toDigits 10 d.digits ++ List.replicate d.exp.toNat '0') ['0'] r d (d.exp.toNat + 1)
      ?_ (by simp) (by simp) hr ?_ ?_
    · have hk : ((Nat.toDigits 10 d.digits).length + d.exp -
          (Nat.toDigits 10 d.digits).length).toNat = d.exp.toNat := by omega
      simpa [hk] using this
    · by_cases hne : d.digits = 0
      · have hx : d.exp = 0 := by
          rcases d.canon with h | h
          · exact absurd (by rw [hne]) h
          · exact h.2
        rw [hne, hx, Nat.toDigits_zero]
        exact Or.inl rfl
      · obtain ⟨c, t, hc, h0⟩ := toDigits_head hne
        refine Or.inr ⟨?_, c, t ++ List.replicate d.exp.toNat '0', by rw [hc, List.cons_append], h0⟩
        intro x hx
        rcases List.mem_append.mp hx with hx | hx
        · exact hds x hx
        · exact isDigit_replicate_zero _ x hx
    · rw [Nat.ofDigitChars_append, Nat.ofDigitChars_append, hval, Nat.ofDigitChars_replicate_zero]
      simp only [Nat.ofDigitChars, List.foldl_cons, List.foldl_nil]
      simp only [Nat.sub_self, Nat.add_zero]
      ring
    · simp only [List.length_singleton]
      push_cast
      omega
  all_goals
    -- `de±xx` and `d.ddde±xx`
    next h4 =>
    obtain ⟨c, t, hc⟩ : ∃ c t, Nat.toDigits 10 d.digits = c :: t :=
      List.exists_cons_of_ne_nil Nat.toDigits_ne_nil
    have hread := readUnsigned_exponent neg r
      ((Nat.toDigits 10 d.digits).length + d.exp - 1) hc hr
      (by rw [hc]; simp only [List.length_cons]; push_cast; omega)
    rw [hc] at hread h4 ⊢
    simp only [List.length_cons, Nat.add_eq_right, List.length_eq_zero_iff] at h4
    simpa [h4, List.append_assoc] using hread

/-! ### Values -/

theorem decimal_text_head (d : Decimal) : ∃ c t, d.text = c :: t ∧ c.isDigit = true := by
  have hds := @isDigit_toDigits d.digits
  obtain ⟨c, t, hc⟩ : ∃ c t, Nat.toDigits 10 d.digits = c :: t :=
    List.exists_cons_of_ne_nil Nat.toDigits_ne_nil
  have hcd : c.isDigit = true := hds c (by rw [hc]; simp)
  rw [Decimal.text, hc]
  split_ifs with h1 h2 h3
  · exact ⟨'0', _, rfl, by decide⟩
  · obtain ⟨j, hj⟩ : ∃ j, (((c :: t).length : Int) + d.exp).toNat = j + 1 :=
      ⟨(((c :: t).length : Int) + d.exp).toNat - 1, by omega⟩
    exact ⟨c, t.take j ++ '.' :: (c :: t).drop (j + 1), by rw [hj]; rfl, hcd⟩
  · exact ⟨c, _, rfl, hcd⟩
  · exact ⟨c, _, rfl, hcd⟩
  · exact ⟨c, _, rfl, hcd⟩

/-- What a printed number is: a special, or a sign and something starting with a digit
that `readUnsigned` reads back. -/
theorem number_text (n : PyNum) :
    n = .float .nan ∨ (∃ neg, n = .float (.inf neg)) ∨
      ∃ neg s, n.text = (if neg then ['-'] else []) ++ s ∧
        (∃ c t, s = c :: t ∧ c.isDigit = true) ∧
        ∀ r, NumEnd r → readUnsigned neg (s ++ r) = some (n, r) := by
  cases n with
  | int i =>
    refine Or.inr (Or.inr ⟨decide (i < 0), Nat.toDigits 10 i.natAbs, ?_, ?_, ?_⟩)
    · simp [PyNum.text, intText]
    · obtain ⟨c, t, hc⟩ : ∃ c t, Nat.toDigits 10 i.natAbs = c :: t :=
        List.exists_cons_of_ne_nil Nat.toDigits_ne_nil
      exact ⟨c, t, hc, isDigit_toDigits c (by rw [hc]; simp)⟩
    · intro r hr
      rw [readUnsigned_append (whole_toDigits _) hr.digitEnd, readFraction_numEnd hr]
      simp only [readExponent_numEnd hr, List.append_nil, Nat.ofDigitChars_ten_toDigits,
        decide_eq_true_eq]
      rw [if_pos List.isEmpty_nil]
      simp only [Option.some.injEq, Prod.mk.injEq, PyNum.int.injEq, and_true]
      split_ifs <;> omega
  | float f =>
    cases f with
    | nan => exact Or.inl rfl
    | inf neg => exact Or.inr (Or.inl ⟨neg, rfl⟩)
    | finite neg d =>
      exact Or.inr (Or.inr ⟨neg, d.text, rfl, decimal_text_head d,
        fun r hr => readUnsigned_decimal neg d hr⟩)

theorem digit_ne {c : Char} (h : c.isDigit = true) : c ≠ '"' ∧ c ≠ '{' ∧ c ≠ '[' ∧ c ≠ 'n' ∧
    c ≠ 't' ∧ c ≠ 'f' ∧ c ≠ 'N' ∧ c ≠ 'I' ∧ c ≠ '-' := by
  refine ⟨?_, ?_, ?_, ?_, ?_, ?_, ?_, ?_, ?_⟩ <;> rintro rfl <;> revert h <;> decide

theorem readValue_number (n : PyNum) {fuel : Nat} {r : List Char} (hr : NumEnd r) :
    readValue (fuel + 1) (n.text ++ r) = some (.num n, r) := by
  rcases number_text n with rfl | ⟨neg, rfl⟩ | ⟨neg, s, htext, ⟨c, t, rfl, hc⟩, hread⟩
  · rfl
  · cases neg <;> rfl
  · obtain ⟨h1, h2, h3, h4, h5, h6, h7, h8, h9⟩ := digit_ne hc
    have hcons := hread r hr
    rw [htext]
    cases neg with
    | false =>
      simp only [Bool.false_eq_true, ↓reduceIte, List.nil_append, List.cons_append] at hcons ⊢
      have hn : readNumber (c :: (t ++ r)) = some (n, r) := by
        rw [readNumber]
        · exact hcons
        · intro r' heq
          simp only [List.cons.injEq] at heq
          exact h9 heq.1
      rw [readValue, hn]
      · rfl
      all_goals
        intros
        simp_all
    | true =>
      simp only [↓reduceIte, List.cons_append, List.nil_append] at hcons ⊢
      have hn : readNumber ('-' :: c :: (t ++ r)) = some (n, r) := by
        rw [readNumber]
        exact hcons
      rw [readValue, hn]
      · rfl
      all_goals
        intros
        simp_all

theorem printed_head (v : Json) : ∃ c t, v.print = c :: t ∧ isJsonSpace c = false ∧
    c ≠ ']' ∧ c ≠ '}' := by
  cases v with
  | null => exact ⟨'n', "ull".toList, rfl, by decide⟩
  | bool b => cases b with
    | true => exact ⟨'t', "rue".toList, rfl, by decide⟩
    | false => exact ⟨'f', "alse".toList, rfl, by decide⟩
  | str s => exact ⟨'"', _, rfl, by decide⟩
  | arr items => exact ⟨'[', _, by rw [JsonOf.print], by decide⟩
  | obj members => exact ⟨'{', _, by rw [JsonOf.print], by decide⟩
  | num n =>
    have hdig : ∀ c : Char, c.isDigit = true → isJsonSpace c = false ∧ c ≠ ']' ∧ c ≠ '}' := by
      intro c hc
      refine ⟨?_, ?_, ?_⟩
      · simp only [isJsonSpace, Bool.or_eq_false_iff, decide_eq_false_iff_not]
        refine ⟨⟨⟨?_, ?_⟩, ?_⟩, ?_⟩ <;> rintro rfl <;> revert hc <;> decide
      · rintro rfl; revert hc; decide
      · rintro rfl; revert hc; decide
    rcases number_text n with rfl | ⟨neg, rfl⟩ | ⟨neg, s, htext, ⟨c, t, rfl, hc⟩, _⟩
    · exact ⟨'N', "aN".toList, rfl, by decide⟩
    · cases neg with
      | true => exact ⟨'-', "Infinity".toList, rfl, by decide⟩
      | false => exact ⟨'I', "nfinity".toList, rfl, by decide⟩
    · rw [JsonOf.print, htext]
      cases neg with
      | true => exact ⟨'-', c :: t, rfl, by decide⟩
      | false => exact ⟨c, t, rfl, hdig c hc⟩

theorem skipSpace_cons {c : Char} (h : isJsonSpace c = false) (t : List Char) :
    skipSpace (c :: t) = c :: t := by
  rw [skipSpace, List.dropWhile_cons, h]
  rfl

theorem skipSpace_print (v : Json) (r : List Char) : skipSpace (v.print ++ r) = v.print ++ r := by
  obtain ⟨c, t, hc, hs, _⟩ := printed_head v
  rw [hc, List.cons_append, skipSpace_cons hs]

theorem print_pos (v : Json) : 0 < v.print.length := by
  obtain ⟨c, t, hc, _⟩ := printed_head v
  rw [hc]
  simp

/-- Reading back a value, for enough fuel. -/
def ReadsBack (v : Json) : Prop := ∀ fuel r, 2 * v.print.length ≤ fuel + 1 → NumEnd r →
  readValue (fuel + 1) (v.print ++ r) = some (v, r)

theorem readItems_print {items : List Json} (h : ∀ v ∈ items, ReadsBack v) (hne : items ≠ [])
    (fuel : Nat) (r : List Char) (hf : 2 * (JsonOf.printItems items).length + 1 ≤ fuel) :
    readItems fuel (JsonOf.printItems items ++ ']' :: r) = some (items, r) := by
  have hend : ∀ t, NumEnd (']' :: t) := fun t => numEnd_cons (by decide)
  have hcomma : ∀ t, NumEnd (',' :: t) := fun t => numEnd_cons (by decide)
  induction items generalizing fuel with
  | nil => exact absurd rfl hne
  | cons v vs ih =>
    have hv := h v (by simp)
    have hpos := print_pos v
    cases vs with
    | nil =>
      rw [JsonOf.printItems] at hf ⊢
      obtain ⟨fuel, rfl⟩ : ∃ k, fuel = k + 2 := ⟨fuel - 2, by omega⟩
      rw [readItems, hv _ _ (by omega) (hend r)]
      simp only [Option.bind_eq_bind, Option.bind_some]
      rw [skipSpace_cons (by decide)]
      rfl
    | cons w ws =>
      rw [JsonOf.printItems] at hf ⊢
      simp only [List.length_append, List.length_cons] at hf
      obtain ⟨fuel, rfl⟩ : ∃ k, fuel = k + 2 := ⟨fuel - 2, by omega⟩
      have hih := ih (fun x hx => h x (List.mem_cons_of_mem _ hx)) (by simp)
        (fuel + 1) (by omega)
      rw [List.append_assoc, List.cons_append, readItems, hv _ _ (by omega) (hcomma _)]
      simp only [Option.bind_eq_bind, Option.bind_some]
      rw [skipSpace_cons (by decide)]
      have hskip : skipSpace (JsonOf.printItems (w :: ws) ++ ']' :: r) =
          JsonOf.printItems (w :: ws) ++ ']' :: r := by
        cases ws with
        | nil => rw [JsonOf.printItems, skipSpace_print]
        | cons x xs => rw [JsonOf.printItems, List.append_assoc, skipSpace_print]
      simp only [hskip, hih, Option.bind_some]
      rfl

theorem skipSpace_quote (k r : List Char) : skipSpace (quote k ++ r) = quote k ++ r := by
  rw [quote, List.cons_append, skipSpace_cons (by decide)]

theorem skipSpace_printMembers {ms : List (String × Json)} (hne : ms ≠ []) (r : List Char) :
    skipSpace (JsonOf.printMembers ms ++ r) = JsonOf.printMembers ms ++ r := by
  cases ms with
  | nil => exact absurd rfl hne
  | cons m ms =>
    obtain ⟨k, v⟩ := m
    cases ms with
    | nil => rw [JsonOf.printMembers, List.append_assoc, skipSpace_quote]
    | cons n ns => rw [JsonOf.printMembers, List.append_assoc, skipSpace_quote]

theorem readMembers_print {ms : List (String × Json)} (h : ∀ m ∈ ms, ReadsBack m.2) (hne : ms ≠ [])
    (fuel : Nat) (r : List Char) (hf : 2 * (JsonOf.printMembers ms).length + 1 ≤ fuel) :
    readMembers fuel (JsonOf.printMembers ms ++ '}' :: r) = some (ms, r) := by
  have hend : ∀ t, NumEnd ('}' :: t) := fun t => numEnd_cons (by decide)
  have hcomma : ∀ t, NumEnd (',' :: t) := fun t => numEnd_cons (by decide)
  induction ms generalizing fuel with
  | nil => exact absurd rfl hne
  | cons m ms ih =>
    obtain ⟨k, v⟩ := m
    have hv : ReadsBack v := h (k, v) (by simp)
    have hpos := print_pos v
    have hk := length_le_flatMap_escapeChar k.toList
    cases ms with
    | nil =>
      rw [JsonOf.printMembers, quote] at hf ⊢
      simp only [List.length_append, List.length_cons, List.length_nil] at hf
      obtain ⟨fuel, rfl⟩ : ∃ j, fuel = j + 2 := ⟨fuel - 2, by omega⟩
      simp only [List.cons_append, List.append_assoc, List.nil_append]
      rw [readMembers, readString_quote _ _ _ (by omega)]
      simp only [Option.bind_eq_bind, Option.bind_some]
      rw [skipSpace_cons (by decide)]
      simp only [skipSpace_print]
      rw [hv _ _ (by omega) (hend r)]
      simp only [Option.bind_some, String.ofList_toList]
      rw [skipSpace_cons (by decide)]
      rfl
    | cons n ns =>
      rw [JsonOf.printMembers, quote] at hf ⊢
      simp only [List.length_append, List.length_cons, List.length_nil] at hf
      obtain ⟨fuel, rfl⟩ : ∃ j, fuel = j + 2 := ⟨fuel - 2, by omega⟩
      have hih := ih (fun x hx => h x (List.mem_cons_of_mem _ hx)) (by simp)
        (fuel + 1) (by omega)
      simp only [List.cons_append, List.append_assoc, List.nil_append]
      rw [readMembers, readString_quote _ _ _ (by omega)]
      simp only [Option.bind_eq_bind, Option.bind_some]
      rw [skipSpace_cons (by decide)]
      simp only [skipSpace_print]
      rw [hv _ _ (by omega) (hcomma _)]
      simp only [Option.bind_some, String.ofList_toList]
      rw [skipSpace_cons (by decide)]
      simp only [skipSpace_printMembers (List.cons_ne_nil n ns), hih, Option.bind_some]
      rfl

/-- **Reading inverts printing** on a value whose dicts are in key order. -/
theorem readsBack_of_sorted {v : Json} (h : v.Sorted) : ReadsBack v := by
  induction v using JsonOf.ind with
  | null => intro fuel r _ _; rfl
  | bool b => intro fuel r _ _; cases b <;> rfl
  | num n => intro fuel r _ hr; exact readValue_number n hr
  | str s =>
    intro fuel r hf _
    have hk := length_le_flatMap_escapeChar s.toList
    rw [JsonOf.print, quote] at hf ⊢
    simp only [List.length_append, List.length_cons, List.length_nil] at hf
    simp only [List.cons_append, List.append_assoc, List.nil_append]
    rw [readValue, readString_quote _ _ _ (by omega)]
    simp
  | arr items ih =>
    intro fuel r hf _
    cases h with
    | arr hs =>
      rw [JsonOf.print] at hf ⊢
      simp only [List.length_append, List.length_cons, List.length_nil] at hf
      simp only [List.cons_append, List.append_assoc, List.nil_append]
      cases items with
      | nil => rfl
      | cons v vs =>
        have hread := readItems_print (fun w hw => ih w hw (hs w hw)) (List.cons_ne_nil v vs)
          fuel r (by omega)
        have hhead : ∃ c t, JsonOf.printItems (v :: vs) ++ ']' :: r = c :: t ∧
            isJsonSpace c = false ∧ c ≠ ']' := by
          obtain ⟨c, t, hc, hsp, hb, _⟩ := printed_head v
          cases vs with
          | nil => exact ⟨c, t ++ ']' :: r, by rw [JsonOf.printItems, hc]; rfl, hsp, hb⟩
          | cons w ws => exact ⟨c, _, by rw [JsonOf.printItems, hc]; rfl, hsp, hb⟩
        obtain ⟨c, t, hct, hsp, hb⟩ := hhead
        rw [hct] at hread ⊢
        rw [readValue, skipSpace_cons hsp]
        split
        · next heq => simp only [List.cons.injEq] at heq; exact absurd heq.1 hb
        · rw [hread]; rfl
  | obj ms ih =>
    intro fuel r hf _
    cases h with
    | obj hkeys hs =>
      rw [JsonOf.print] at hf ⊢
      simp only [List.length_append, List.length_cons, List.length_nil] at hf
      simp only [List.cons_append, List.append_assoc, List.nil_append]
      cases ms with
      | nil => rfl
      | cons m ms =>
        have hread := readMembers_print (fun n hn => ih n hn (hs n hn)) (List.cons_ne_nil m ms)
          fuel r (by omega)
        have hhead : ∃ t, JsonOf.printMembers (m :: ms) ++ '}' :: r = '"' :: t := by
          obtain ⟨k, v⟩ := m
          cases ms with
          | nil => exact ⟨_, by rw [JsonOf.printMembers, quote]; rfl⟩
          | cons n ns => exact ⟨_, by rw [JsonOf.printMembers, quote]; rfl⟩
        obtain ⟨t, ht⟩ := hhead
        rw [ht] at hread ⊢
        rw [readValue, skipSpace_cons (by decide)]
        show (readMembers fuel ('"' :: t)).map _ = _
        rw [hread]
        simp only [Option.map_some, dictOf_of_sorted hkeys]

/-- **`loads` inverts `dumps`** on a value whose dicts are in key order. -/
theorem loads_dumps {v : Json} (h : v.Sorted) : loads v.dumps = some v := by
  have hread := readsBack_of_sorted h (2 * v.print.length) [] (by omega) numEnd_nil
  have hskip := skipSpace_print v []
  rw [List.append_nil] at hread hskip
  rw [loads, JsonOf.dumps, String.toList_ofList, hskip]
  simp only [hread]
  rfl

/-- The canonical text of a value determines it. -/
theorem dumps_injective {v w : Json} (hv : v.Sorted) (hw : w.Sorted) (h : v.dumps = w.dumps) :
    v = w := by
  have := loads_dumps hv
  rw [h, loads_dumps hw] at this
  exact (Option.some.inj this).symm

/-! ### What is read is in key order -/

/-- The three readers give values whose dicts are in key order. -/
theorem sorted_of_read (fuel : Nat) : ∀ s : List Char,
    (∀ v r, readValue fuel s = some (v, r) → v.Sorted) ∧
    (∀ vs r, readItems fuel s = some (vs, r) → ∀ v ∈ vs, v.Sorted) ∧
    (∀ ms r, readMembers fuel s = some (ms, r) → ∀ m ∈ ms, m.2.Sorted) := by
  induction fuel with
  | zero =>
    exact fun s => ⟨fun _ _ h => (nomatch h), fun _ _ h => (nomatch h), fun _ _ h => (nomatch h)⟩
  | succ fuel ih =>
    intro s
    refine ⟨?_, ?_, ?_⟩
    · intro v r h
      unfold readValue at h
      dsimp only at h
      split at h
      · obtain ⟨⟨t, r'⟩, -, h⟩ := Option.map_eq_some_iff.mp h
        obtain ⟨rfl, -⟩ := Prod.mk.inj h
        exact .str _
      · split at h
        · obtain ⟨rfl, -⟩ := Prod.mk.inj (Option.some.inj h)
          exact .obj .nil fun _ hm => absurd hm List.not_mem_nil
        · obtain ⟨⟨ms, r'⟩, hms, h⟩ := Option.map_eq_some_iff.mp h
          obtain ⟨rfl, -⟩ := Prod.mk.inj h
          exact .obj (dictOf_sorted ms) (dictOf_forall ((ih _).2.2 ms r' hms))
      · split at h
        · obtain ⟨rfl, -⟩ := Prod.mk.inj (Option.some.inj h)
          exact .arr fun _ hv => absurd hv List.not_mem_nil
        · obtain ⟨⟨vs, r'⟩, hvs, h⟩ := Option.map_eq_some_iff.mp h
          obtain ⟨rfl, -⟩ := Prod.mk.inj h
          exact .arr ((ih _).2.1 vs r' hvs)
      · obtain ⟨rfl, -⟩ := Prod.mk.inj (Option.some.inj h)
        exact .null
      · obtain ⟨rfl, -⟩ := Prod.mk.inj (Option.some.inj h)
        exact .bool _
      · obtain ⟨rfl, -⟩ := Prod.mk.inj (Option.some.inj h)
        exact .bool _
      · obtain ⟨rfl, -⟩ := Prod.mk.inj (Option.some.inj h)
        exact .num _
      · obtain ⟨rfl, -⟩ := Prod.mk.inj (Option.some.inj h)
        exact .num _
      · obtain ⟨rfl, -⟩ := Prod.mk.inj (Option.some.inj h)
        exact .num _
      · obtain ⟨⟨n, r'⟩, -, h⟩ := Option.map_eq_some_iff.mp h
        obtain ⟨rfl, -⟩ := Prod.mk.inj h
        exact .num _
    · intro vs r h
      simp only [readItems, Option.bind_eq_bind, Option.bind_eq_some_iff] at h
      obtain ⟨⟨v, r'⟩, hv, h⟩ := h
      have hsorted := (ih s).1 v r' hv
      dsimp only at h
      split at h
      · obtain ⟨⟨ws, r''⟩, hws, h⟩ := Option.bind_eq_some_iff.mp h
        obtain ⟨rfl, -⟩ := Prod.mk.inj (Option.some.inj h)
        exact List.forall_mem_cons.mpr ⟨hsorted, (ih _).2.1 ws r'' hws⟩
      · obtain ⟨rfl, -⟩ := Prod.mk.inj (Option.some.inj h)
        exact List.forall_mem_singleton.mpr hsorted
      · exact nomatch h
    · intro ms r h
      unfold readMembers at h
      dsimp only at h
      split at h
      · simp only [Option.bind_eq_bind, Option.bind_eq_some_iff] at h
        obtain ⟨⟨k, r'⟩, -, h⟩ := h
        dsimp only at h
        split at h
        · obtain ⟨⟨v, r''⟩, hv, h⟩ := Option.bind_eq_some_iff.mp h
          have hsorted := (ih _).1 v r'' hv
          dsimp only at h
          split at h
          · obtain ⟨⟨ns, q⟩, hns, h⟩ := Option.bind_eq_some_iff.mp h
            obtain ⟨rfl, -⟩ := Prod.mk.inj (Option.some.inj h)
            exact List.forall_mem_cons.mpr ⟨hsorted, (ih _).2.2 ns q hns⟩
          · obtain ⟨rfl, -⟩ := Prod.mk.inj (Option.some.inj h)
            exact List.forall_mem_singleton.mpr hsorted
          · exact nomatch h
        · exact nomatch h
      · exact nomatch h

/-- **What `loads` reads is in key order.** -/
theorem sorted_of_loads {s : String} {v : Json} (h : loads s = some v) : v.Sorted := by
  rw [loads] at h
  split at h
  · next w r hread =>
    split at h
    · obtain rfl := Option.some.inj h
      exact (sorted_of_read _ _).1 _ _ hread
    · exact nomatch h
  · exact nomatch h

end Py
