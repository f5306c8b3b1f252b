import SharedMind.Py.Json

/-!
# Lawful codecs

A `Codec α` reads and writes values of `α` as JSON.  Reading gives a value back
exactly from the JSON that writing it makes (`dec_enc`, `enc_dec`), so a codec is
both the schema of a type, by what `dec` accepts, and its canonical form.

* `Codec.str`, `num`, `enum`, `list`, `nullable`, `refine`, `iso`: the pieces.
* `Fields`: the members of an object in key order, each required, optional or
  constant; `Fields.object` closes them.
* `Tagged`: an object with a constant member that tells it apart from the other
  members of a union (`Tagged.sum`).
-/

namespace Py

structure Codec (α : Type) where
  enc : α → Json
  dec : Json → Option α
  dec_enc : ∀ a, dec (enc a) = some a
  enc_dec : ∀ {v a}, dec v = some a → enc a = v
  sorted : ∀ a, (enc a).Sorted

namespace Codec

variable {α β : Type}

theorem enc_injective (c : Codec α) {a b : α} (h : c.enc a = c.enc b) : a = b := by
  have := c.dec_enc a
  rw [h, c.dec_enc b] at this
  exact (Option.some.inj this).symm

theorem dec_eq_some_iff (c : Codec α) {v : Json} {a : α} : c.dec v = some a ↔ v = c.enc a := by
  constructor
  · intro h
    exact (c.enc_dec h).symm
  · rintro rfl
    exact c.dec_enc a

theorem dec_eq_none_of_ne (c : Codec α) {v : Json} (h : ∀ a, v ≠ c.enc a) : c.dec v = none := by
  cases hv : c.dec v with
  | none => rfl
  | some a => exact absurd (c.dec_eq_some_iff.mp hv) (h a)

def str : Codec String where
  enc := .str
  dec := JsonOf.str?
  dec_enc _ := rfl
  enc_dec {v a} h := by
    cases v with
    | str s => simp only [JsonOf.str?, Option.some.injEq] at h; rw [h]
    | _ => simp [JsonOf.str?] at h
  sorted s := .str s

def num : Codec PyNum where
  enc := .num
  dec v := match v with
    | .num n => some n
    | _ => none
  dec_enc _ := rfl
  enc_dec {v a} h := by
    cases v with
    | num n => simp only [Option.some.injEq] at h; rw [h]
    | _ => simp at h
  sorted n := .num n

def bool : Codec Bool where
  enc := .bool
  dec v := match v with
    | .bool b => some b
    | _ => none
  dec_enc _ := rfl
  enc_dec {v a} h := by
    cases v with
    | bool b => simp only [Option.some.injEq] at h; rw [h]
    | _ => simp at h
  sorted b := .bool b

/-- The same JSON, read as another type. -/
def iso (c : Codec α) (f : α → β) (g : β → α) (hfg : ∀ b, f (g b) = b) (hgf : ∀ a, g (f a) = a) :
    Codec β where
  enc b := c.enc (g b)
  dec v := (c.dec v).map f
  dec_enc b := by rw [c.dec_enc, Option.map_some, hfg]
  enc_dec {v b} h := by
    obtain ⟨a, ha, rfl⟩ := Option.map_eq_some_iff.mp h
    rw [hgf, c.enc_dec ha]
  sorted b := c.sorted (g b)

/-- Only the values with a property. -/
def refine (c : Codec α) (p : α → Prop) [DecidablePred p] : Codec {a // p a} where
  enc a := c.enc a.1
  dec v := (c.dec v).bind fun a => if h : p a then some ⟨a, h⟩ else none
  dec_enc a := by rw [c.dec_enc, Option.bind_some, dif_pos a.2]
  enc_dec {v a} h := by
    obtain ⟨b, hb, hp⟩ := Option.bind_eq_some_iff.mp h
    split at hp
    · simp only [Option.some.injEq] at hp
      rw [← hp, c.enc_dec hb]
    · simp at hp
  sorted a := c.sorted a.1

theorem refine_dec_eq_none (c : Codec α) (p : α → Prop) [DecidablePred p] {v : Json}
    (h : c.dec v = none) : (c.refine p).dec v = none := by
  simp [refine, h]

/-- One of finitely many texts. -/
def enum [DecidableEq α] (all : List α) (text : α → String) (hall : ∀ a, a ∈ all)
    (hinj : ∀ a b, text a = text b → a = b) : Codec α where
  enc a := .str (text a)
  dec v := match v with
    | .str s => all.find? fun a => text a = s
    | _ => none
  dec_enc a := by
    show (all.find? fun b => decide (text b = text a)) = some a
    cases hf : all.find? fun b => decide (text b = text a) with
    | none =>
      have hne := List.find?_eq_none.mp hf a (hall a)
      simp at hne
    | some b =>
      have hb := List.find?_some hf
      simp only [decide_eq_true_eq] at hb
      rw [hinj b a hb]
  enc_dec {v a} h := by
    cases v with
    | str s =>
      have := List.find?_some h
      simp only [decide_eq_true_eq] at this
      rw [this]
    | _ => simp at h
  sorted a := .str (text a)

/-- `null`, or a value that is not `null`. -/
def nullable (c : Codec α) (hc : ∀ a, c.enc a ≠ .null) : Codec (Option α) where
  enc a := match a with
    | none => .null
    | some a => c.enc a
  dec v := match v with
    | .null => some none
    | v => (c.dec v).map some
  dec_enc a := by
    cases a with
    | none => rfl
    | some a =>
      have h := c.dec_enc a
      simp only
      split
      · next heq => exact absurd heq (hc a)
      · rw [h]; rfl
  enc_dec {v a} h := by
    split at h
    · simp only [Option.some.injEq] at h; rw [← h]
    · obtain ⟨b, hb, rfl⟩ := Option.map_eq_some_iff.mp h
      exact c.enc_dec hb
  sorted a := by
    cases a with
    | none => exact .null
    | some a => exact c.sorted a

theorem mapM_enc (c : Codec α) (as : List α) : (as.map c.enc).mapM c.dec = some as := by
  induction as with
  | nil => rfl
  | cons a as ih =>
    rw [List.map_cons, List.mapM_cons, c.dec_enc, ih]
    rfl

theorem map_enc_of_mapM (c : Codec α) {vs : List Json} {as : List α}
    (h : vs.mapM c.dec = some as) : as.map c.enc = vs := by
  induction vs generalizing as with
  | nil =>
    simp only [List.mapM_nil, Option.pure_def, Option.some.injEq] at h
    subst h
    rfl
  | cons v vs ih =>
    rw [List.mapM_cons] at h
    simp only [Option.bind_eq_bind, Option.pure_def] at h
    obtain ⟨a, ha, h⟩ := Option.bind_eq_some_iff.mp h
    obtain ⟨bs, hbs, h⟩ := Option.bind_eq_some_iff.mp h
    simp only [Option.some.injEq] at h
    subst h
    rw [List.map_cons, c.enc_dec ha, ih hbs]

def list (c : Codec α) : Codec (List α) where
  enc as := .arr (as.map c.enc)
  dec v := match v with
    | .arr vs => vs.mapM c.dec
    | _ => none
  dec_enc as := c.mapM_enc as
  enc_dec {v as} h := by
    cases v with
    | arr vs => simp only at h; rw [c.map_enc_of_mapM h]
    | _ => simp at h
  sorted as := by
    refine .arr fun v hv => ?_
    obtain ⟨a, _, rfl⟩ := List.mem_map.mp hv
    exact c.sorted a

/-- A list whose items the codec writes as different values. -/
def UniqueItems (c : Codec α) (as : List α) : Prop := JsonOf.uniqueItems (as.map c.enc)

instance (c : Codec α) : DecidablePred c.UniqueItems :=
  fun as => inferInstanceAs (Decidable (JsonOf.uniqueItems (as.map c.enc)))

end Codec

/-! ### Objects -/

/-- The members of an object, by key order. -/
structure Fields (α : Type) where
  keys : List String
  enc : α → List (String × Json)
  dec : List (String × Json) → Option α
  dec_enc : ∀ a, dec (enc a) = some a
  enc_dec : ∀ {ms a}, dec ms = some a → enc a = ms
  keys_enc : ∀ a, ((enc a).map Prod.fst).Sublist keys
  sorted : ∀ a, ∀ m ∈ enc a, JsonOf.Sorted m.2

namespace Fields

variable {α β : Type}

def nil : Fields Unit where
  keys := []
  enc _ := []
  dec ms := match ms with
    | [] => some ()
    | _ :: _ => none
  dec_enc _ := rfl
  enc_dec {ms _} h := by
    cases ms with
    | nil => rfl
    | cons _ _ => simp at h
  keys_enc _ := List.Sublist.slnil
  sorted _ _ h := by simp at h

/-- A required member and the rest. -/
def req (k : String) (c : Codec α) (rest : Fields β) : Fields (α × β) where
  keys := k :: rest.keys
  enc p := (k, c.enc p.1) :: rest.enc p.2
  dec ms := match ms with
    | [] => none
    | m :: ms => if m.1 = k then (c.dec m.2).bind fun a => (rest.dec ms).map fun b => (a, b)
      else none
  dec_enc p := by
    simp only [↓reduceIte, c.dec_enc, rest.dec_enc, Option.bind_some, Option.map_some]
  enc_dec {ms p} h := by
    cases ms with
    | nil => simp at h
    | cons m ms =>
      obtain ⟨l, v⟩ := m
      simp only at h
      split at h
      · next hk =>
        obtain ⟨a, ha, h⟩ := Option.bind_eq_some_iff.mp h
        obtain ⟨b, hb, rfl⟩ := Option.map_eq_some_iff.mp h
        rw [c.enc_dec ha, rest.enc_dec hb, hk]
      · simp at h
  keys_enc p := (rest.keys_enc p.2).cons_cons k
  sorted p := by
    intro m hm
    rcases List.mem_cons.mp hm with rfl | hm
    · exact c.sorted p.1
    · exact rest.sorted p.2 m hm

/-- An optional member and the rest. -/
def opt (k : String) (c : Codec α) (rest : Fields β) (hk : k ∉ rest.keys) :
    Fields (Option α × β) where
  keys := k :: rest.keys
  enc p := match p.1 with
    | some a => (k, c.enc a) :: rest.enc p.2
    | none => rest.enc p.2
  dec ms := match ms with
    | [] => (rest.dec []).map fun b => (none, b)
    | m :: ms => if m.1 = k then (c.dec m.2).bind fun a => (rest.dec ms).map fun b => (some a, b)
      else (rest.dec (m :: ms)).map fun b => (none, b)
  dec_enc p := by
    obtain ⟨a, b⟩ := p
    cases a with
    | some a =>
      simp only [↓reduceIte, c.dec_enc, rest.dec_enc, Option.bind_some, Option.map_some]
    | none =>
      have hdec := rest.dec_enc b
      have hkeys := rest.keys_enc b
      simp only
      cases hms : rest.enc b with
      | nil => rw [hms] at hdec; simp only [hdec, Option.map_some]
      | cons m ms =>
        rw [hms] at hdec hkeys
        have hm : m.1 ≠ k := by
          rintro rfl
          exact hk (hkeys.subset (by simp))
        simp only [if_neg hm, hdec, Option.map_some]
  enc_dec {ms p} h := by
    cases ms with
    | nil =>
      obtain ⟨b, hb, rfl⟩ := Option.map_eq_some_iff.mp h
      exact rest.enc_dec hb
    | cons m ms =>
      obtain ⟨l, v⟩ := m
      simp only at h
      split at h
      · next hl =>
        obtain ⟨a, ha, h⟩ := Option.bind_eq_some_iff.mp h
        obtain ⟨b, hb, rfl⟩ := Option.map_eq_some_iff.mp h
        simp only
        rw [c.enc_dec ha, rest.enc_dec hb, hl]
      · obtain ⟨b, hb, rfl⟩ := Option.map_eq_some_iff.mp h
        exact rest.enc_dec hb
  keys_enc p := by
    obtain ⟨a, b⟩ := p
    cases a with
    | some a => exact (rest.keys_enc b).cons_cons k
    | none => exact (rest.keys_enc b).cons k
  sorted p := by
    obtain ⟨a, b⟩ := p
    intro m hm
    cases a with
    | some a =>
      rcases List.mem_cons.mp hm with rfl | hm
      · exact c.sorted a
      · exact rest.sorted b m hm
    | none => exact rest.sorted b m hm

/-- A member of one constant text and the rest. -/
def const (k v : String) (rest : Fields β) : Fields β where
  keys := k :: rest.keys
  enc b := (k, .str v) :: rest.enc b
  dec ms := match ms with
    | [] => none
    | m :: ms => if m.1 = k ∧ m.2.str? = some v then rest.dec ms else none
  dec_enc b := by
    simp only [JsonOf.str?, and_self, ↓reduceIte, rest.dec_enc]
  enc_dec {ms b} h := by
    cases ms with
    | nil => simp at h
    | cons m ms =>
      obtain ⟨l, w⟩ := m
      simp only at h
      split at h
      · next hk =>
        obtain ⟨rfl, hw⟩ := hk
        rw [rest.enc_dec h, ← Codec.str.enc_dec hw]
        rfl
      · simp at h
  keys_enc b := (rest.keys_enc b).cons_cons k
  sorted b := by
    intro m hm
    rcases List.mem_cons.mp hm with rfl | hm
    · exact .str v
    · exact rest.sorted b m hm

/-- The closed object of the members. -/
def object (f : Fields α) (h : f.keys.Pairwise (· < ·)) : Codec α where
  enc a := .obj (f.enc a)
  dec v := match v with
    | .obj ms => f.dec ms
    | _ => none
  dec_enc a := f.dec_enc a
  enc_dec {v a} hv := by
    cases v with
    | obj ms => simp only at hv; rw [f.enc_dec hv]
    | _ => simp at hv
  sorted a := .obj (h.sublist (f.keys_enc a)) (f.sorted a)

theorem object_enc_ne_null (f : Fields α) (h : f.keys.Pairwise (· < ·)) (a : α) :
    (f.object h).enc a ≠ .null := by
  simp [object]

end Fields

/-! ### Unions -/

/-- A codec that writes objects, with one of some texts under `key`. -/
structure Tagged (key : String) (α : Type) extends Codec α where
  tags : List String
  tag_mem : ∀ a, ∃ t ∈ tags, ∃ ms, enc a = .obj ms ∧ (key, JsonOf.str t) ∈ ms ∧
    (ms.map Prod.fst).Nodup

namespace Tagged

variable {α β : Type} {key : String}

/-- Values under different tags are written differently. -/
theorem enc_ne {a : Tagged key α} {b : Tagged key β} (h : ∀ t ∈ a.tags, t ∉ b.tags) (x : α)
    (y : β) :
    a.enc x ≠ b.enc y := by
  intro heq
  obtain ⟨s, hs, ms, hx, hms, hnd⟩ := a.tag_mem x
  obtain ⟨t, ht, ns, hy, hns, _⟩ := b.tag_mem y
  rw [hx, hy, JsonOf.obj.injEq] at heq
  subst heq
  have hst := List.inj_on_of_nodup_map hnd hms hns rfl
  simp only [Prod.mk.injEq, JsonOf.str.injEq, true_and] at hst
  subst hst
  exact h s hs ht

/-- One or the other. -/
def sum (a : Tagged key α) (b : Tagged key β) (h : ∀ t ∈ a.tags, t ∉ b.tags) :
    Tagged key (α ⊕ β) where
  enc s := match s with
    | .inl x => a.enc x
    | .inr y => b.enc y
  dec v := match a.dec v with
    | some x => some (.inl x)
    | none => (b.dec v).map .inr
  dec_enc s := by
    cases s with
    | inl x => simp only [a.dec_enc]
    | inr y =>
      have hnone : a.dec (b.enc y) = none :=
        a.toCodec.dec_eq_none_of_ne fun x heq => enc_ne h x y heq.symm
      simp only [hnone, b.dec_enc, Option.map_some]
  enc_dec {v s} hv := by
    cases ha : a.dec v with
    | some x =>
      rw [ha] at hv
      simp only [Option.some.injEq] at hv
      subst hv
      exact a.enc_dec ha
    | none =>
      rw [ha] at hv
      obtain ⟨y, hy, rfl⟩ := Option.map_eq_some_iff.mp hv
      exact b.enc_dec hy
  sorted s := by
    cases s with
    | inl x => exact a.sorted x
    | inr y => exact b.sorted y
  tags := a.tags ++ b.tags
  tag_mem s := by
    cases s with
    | inl x =>
      obtain ⟨t, ht, hrest⟩ := a.tag_mem x
      exact ⟨t, List.mem_append_left _ ht, hrest⟩
    | inr y =>
      obtain ⟨t, ht, hrest⟩ := b.tag_mem y
      exact ⟨t, List.mem_append_right _ ht, hrest⟩

def iso (c : Tagged key α) (f : α → β) (g : β → α) (hfg : ∀ b, f (g b) = b)
    (hgf : ∀ a, g (f a) = a) : Tagged key β where
  toCodec := c.toCodec.iso f g hfg hgf
  tags := c.tags
  tag_mem b := c.tag_mem (g b)

/-- The object of one member. -/
def only (c : Tagged key (α × Unit)) : Tagged key α :=
  c.iso (fun p => p.1) (fun a => (a, ())) (fun _ => rfl) (fun _ => rfl)

def refine (c : Tagged key α) (p : α → Prop) [DecidablePred p] : Tagged key {a // p a} where
  toCodec := c.toCodec.refine p
  tags := c.tags
  tag_mem a := c.tag_mem a.1

end Tagged

/-- Members that carry a constant text under `key`. -/
structure TaggedFields (key : String) (α : Type) extends Fields α where
  tag : String
  tag_mem : ∀ a, (key, JsonOf.str tag) ∈ enc a

namespace TaggedFields

variable {α β : Type} {key : String}

/-- The tag, then the rest. -/
def tagged (key tag : String) (rest : Fields α) : TaggedFields key α where
  toFields := Fields.const key tag rest
  tag := tag
  tag_mem _ := List.mem_cons_self

/-- A member before the tag. -/
def req (k : String) (c : Codec α) (rest : TaggedFields key β) : TaggedFields key (α × β) where
  toFields := Fields.req k c rest.toFields
  tag := rest.tag
  tag_mem p := List.mem_cons_of_mem _ (rest.tag_mem p.2)

def object (f : TaggedFields key α) (h : f.keys.Pairwise (· < ·)) : Tagged key α where
  toCodec := f.toFields.object h
  tags := [f.tag]
  tag_mem a := ⟨f.tag, List.mem_singleton_self _, f.enc a, rfl, f.tag_mem a,
    (h.sublist (f.keys_enc a)).imp fun hlt => ne_of_lt hlt⟩

end TaggedFields

end Py
