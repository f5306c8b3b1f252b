import SharedMind.Py.Store

/-!
# Relations between tables

* `Table.Keeps`: no row is lost, and each is related to the one that is stored later.
* `Table.toList_congr`: tables whose rows are shown alike are shown alike.
-/

namespace Py.Table

variable {κ ρ σ τ : Type} [LinearOrder κ] {R : ρ → ρ → Prop} {s t u : Table κ ρ}

@[simp] theorem get_mapped (t : Table κ ρ) (f : κ → ρ → σ) (k : κ) :
    (t.map f)[k]? = t[k]?.map (f k) := Std.ExtTreeMap.getElem?_map

/-- Tables whose rows are shown alike under every key are shown alike. -/
theorem toList_congr {s : Table κ ρ} {t : Table κ σ} {f : κ → ρ → τ} {g : κ → σ → τ}
    (h : ∀ k : κ, s[k]?.map (f k) = t[k]?.map (g k)) :
    s.toList.map (fun r => f r.1 r.2) = t.toList.map fun r => g r.1 r.2 := by
  have hmap : s.map f = t.map g := by
    apply Table.ext
    intro k
    rw [get_mapped, get_mapped, h]
  have hlist := congrArg (fun u : Table κ τ => u.toList.map Prod.snd) hmap
  simp only [Std.ExtTreeMap.toList_map, List.map_map] at hlist
  exact hlist

/-- Each row of `s` has one in `t` that is related to it. -/
def Keeps (R : ρ → ρ → Prop) (s t : Table κ ρ) : Prop :=
  ∀ (k : κ) (r : ρ), s[k]? = some r → ∃ r', t[k]? = some r' ∧ R r r'

namespace Keeps

theorem refl (hR : ∀ r, R r r) (s : Table κ ρ) : Keeps R s s := fun _ r hr => ⟨r, hr, hR r⟩

theorem trans (hR : ∀ a b c, R a b → R b c → R a c) (hst : Keeps R s t) (htu : Keeps R t u) :
    Keeps R s u := by
  intro k r hr
  obtain ⟨r', hr', h⟩ := hst k r hr
  obtain ⟨r'', hr'', h'⟩ := htu k r' hr'
  exact ⟨r'', hr'', hR r r' r'' h h'⟩

end Keeps

end Py.Table
