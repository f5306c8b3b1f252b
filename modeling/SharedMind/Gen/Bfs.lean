import Mathlib.Data.List.Basic
import Mathlib.Data.List.Chain
import Mathlib.Data.List.Perm.Subperm
import Mathlib.Tactic

/-!
# Breadth-first search

A search from a node along `next`, up to a depth, which lists a path for every step it takes.

* `Walk`, `Distance`: walks and the length of the shortest ones.
* `search`: the queue, the nodes visited and the paths listed.
* `Searched`: the invariant.  `depth` says how deep each visited node was found.
* `exists_search`: **the search ends**, and
  `Searched.mem_visited_iff`: **it has visited the nodes within the depth**.
-/

namespace Bfs

section

variable {α : Type} (r : α → α → Prop)

/-- `p` leads from `a` to `b`, each step along `r`. -/
def Walk (a b : α) (p : List α) : Prop :=
  p.head? = some a ∧ p.getLast? = some b ∧ p.IsChain r

/-- The shortest walks from `a` to `b` have `n` steps. -/
def Distance (a b : α) (n : ℕ) : Prop :=
  (∃ p, Walk r a b p ∧ p.length = n + 1) ∧ ∀ p, Walk r a b p → n + 1 ≤ p.length

end

section

variable {α : Type} (next : α → List α)

/-- A step from a node to one of its neighbours. -/
abbrev Leads (a b : α) : Prop := b ∈ next a

structure State (α : Type) where
  queue : List (α × List α)
  visited : List α
  paths : List (List α)

/-- The start is queued with the path to itself. -/
def State.start (a : α) : State α := ⟨[(a, [a])], [a], []⟩

variable [DecidableEq α]

/-- One neighbour: the path to it is listed, and it is queued unless it was visited. -/
def State.reach (s : State α) (path : List α) (b : α) : State α where
  queue := if b ∈ s.visited then s.queue else s.queue ++ [(b, path ++ [b])]
  visited := if b ∈ s.visited then s.visited else s.visited ++ [b]
  paths := s.paths ++ [path ++ [b]]

/-- What is at the front of the queue, and the queue without it. -/
def State.expand (s : State α) (maxDepth : ℕ) (a : α) (path : List α)
    (rest : List (α × List α)) : State α :=
  if maxDepth ≤ path.length - 1 then { s with queue := rest }
  else (next a).foldl (fun s b => s.reach path b) { s with queue := rest }

/-- The loop, for as long as there is fuel. -/
def search (maxDepth : ℕ) : ℕ → State α → Option (State α)
  | fuel, s =>
    match s.queue, fuel with
    | [], _ => some s
    | _ :: _, 0 => none
    | (a, path) :: rest, fuel + 1 => search maxDepth fuel (s.expand next maxDepth a path rest)
termination_by structural fuel => fuel

end

/-! ### Walks -/

section

variable {α : Type} {r : α → α → Prop} {a b c : α} {p : List α}

theorem Walk.single (a : α) : Walk r a a [a] := ⟨rfl, rfl, .singleton a⟩

theorem Walk.ne_nil (h : Walk r a b p) : p ≠ [] := by
  rintro rfl
  exact nomatch h.1

theorem Walk.snoc (h : Walk r a b p) (hc : r b c) : Walk r a c (p ++ [c]) := by
  refine ⟨?_, List.getLast?_concat .., ?_⟩
  · rw [List.head?_append_of_ne_nil _ h.ne_nil, h.1]
  · refine h.2.2.append (.singleton c) fun x hx y hy => ?_
    obtain rfl := Option.some.inj (h.2.1.symm.trans hx)
    obtain rfl := Option.some.inj hy
    exact hc

/-- A walk is a single node, or a walk with one step more. -/
theorem Walk.cases_snoc (h : Walk r a c p) : (p = [a] ∧ a = c) ∨
    ∃ b q, Walk r a b q ∧ r b c ∧ p = q ++ [c] := by
  obtain ⟨hhead, hlast, hchain⟩ := h
  cases p using List.reverseRecOn with
  | nil => exact nomatch hhead
  | append_singleton q x =>
    obtain rfl : x = c := by simpa using hlast
    by_cases hq : q = []
    · subst hq
      obtain rfl : x = a := by simpa using hhead
      exact Or.inl ⟨rfl, rfl⟩
    · obtain ⟨b, hb⟩ := Option.isSome_iff_exists.mp (List.getLast?_isSome.mpr hq)
      rw [List.head?_append_of_ne_nil _ hq] at hhead
      have hparts := List.isChain_append.mp hchain
      exact Or.inr ⟨b, q, ⟨hhead, hb, hparts.1⟩, hparts.2.2 b hb x rfl, rfl⟩

theorem Distance.eq {m n : ℕ} (hm : Distance r a b m) (hn : Distance r a b n) :
    m = n := by
  obtain ⟨⟨p, hp, hpm⟩, hleast⟩ := hm
  obtain ⟨⟨q, hq, hqn⟩, hleast'⟩ := hn
  have hmq := hleast q hq
  have hnp := hleast' p hp
  omega

theorem Distance.self (a : α) : Distance r a a 0 := by
  refine ⟨⟨[a], .single a, rfl⟩, fun p hp => ?_⟩
  exact List.length_pos_of_ne_nil hp.ne_nil

theorem Distance.eq_of_zero (h : Distance r a b 0) : b = a := by
  obtain ⟨⟨p, hp, hlength⟩, -⟩ := h
  obtain ⟨y, rfl⟩ := List.length_eq_one_iff.mp hlength
  have hhead := Option.some.inj hp.1
  have hlast : y = b := Option.some.inj hp.2.1
  exact hlast.symm.trans hhead

end

/-! ### The invariant -/

/-- What a search from `start` knows while it is under way. -/
structure Searched {α : Type} (next : α → List α) (start : α) (maxDepth : ℕ) (depth : α → ℕ)
    (s : State α) : Prop where
  nodup : s.visited.Nodup
  start_mem : start ∈ s.visited
  depth_start : depth start = 0
  queued : ∀ q ∈ s.queue,
    q.1 ∈ s.visited ∧ Walk (Leads next) start q.1 q.2 ∧ q.2.length = depth q.1 + 1
  sorted : s.queue.Pairwise fun q r => depth q.1 ≤ depth r.1
  near : ∀ q ∈ s.queue, ∀ a ∈ s.visited, depth a ≤ depth q.1 + 1
  found : ∀ a ∈ s.visited, a ≠ start →
    ∃ p ∈ s.paths, Walk (Leads next) start a p ∧ p.length = depth a + 1
  listed : ∀ p ∈ s.paths, (∃ a, Walk (Leads next) start a p) ∧ p.length ≤ maxDepth + 1
  within : ∀ a ∈ s.visited, depth a ≤ maxDepth
  closed : ∀ a ∈ s.visited, depth a < maxDepth → (∃ p, (a, p) ∈ s.queue) ∨
    ∀ b ∈ next a, b ∈ s.visited ∧ depth b ≤ depth a + 1

section

variable {α : Type} {next : α → List α} {start a b : α} {maxDepth : ℕ} {depth : α → ℕ}
  {s t : State α} {path : List α} {rest : List (α × List α)}

theorem searched_start : Searched next start maxDepth (fun _ => 0) (.start start) where
  nodup := List.nodup_singleton start
  start_mem := List.mem_singleton_self start
  depth_start := rfl
  queued q hq := by
    obtain rfl := List.mem_singleton.mp hq
    exact ⟨List.mem_singleton_self start, .single start, rfl⟩
  sorted := List.pairwise_singleton _ _
  near _ _ _ _ := Nat.zero_le _
  found a ha hne := absurd (List.mem_singleton.mp ha) hne
  listed _ hp := absurd hp List.not_mem_nil
  within _ _ := Nat.zero_le _
  closed a ha _ := by
    obtain rfl := List.mem_singleton.mp ha
    exact Or.inl ⟨[a], List.mem_singleton_self _⟩

/-- The front of the queue is done once its neighbours were reached, or it is as deep as the search
goes. -/
theorem Searched.pop (h : Searched next start maxDepth depth { s with queue := (a, path) :: rest })
    (hdone : maxDepth ≤ depth a ∨ ∀ b ∈ next a, b ∈ s.visited ∧ depth b ≤ depth a + 1) :
    Searched next start maxDepth depth { s with queue := rest } where
  nodup := h.nodup
  start_mem := h.start_mem
  depth_start := h.depth_start
  queued q hq := h.queued q (List.mem_cons_of_mem _ hq)
  sorted := (List.pairwise_cons.mp h.sorted).2
  near q hq := h.near q (List.mem_cons_of_mem _ hq)
  found := h.found
  listed := h.listed
  within := h.within
  closed x hx hdeep := by
    rcases h.closed x hx hdeep with ⟨p, hp⟩ | hall
    · rcases List.mem_cons.mp hp with heq | hp
      · obtain ⟨rfl, -⟩ := Prod.mk.inj heq
        exact Or.inr (hdone.resolve_left (not_le.mpr hdeep))
      · exact Or.inl ⟨p, hp⟩
    · exact Or.inr hall

variable [DecidableEq α]

theorem mem_reach_visited {x : α} :
    x ∈ (s.reach path b).visited ↔ x ∈ s.visited ∨ x = b := by
  by_cases hvisited : b ∈ s.visited
  · simp only [State.reach, if_pos hvisited]
    refine ⟨Or.inl, fun hx => hx.elim id ?_⟩
    rintro rfl
    exact hvisited
  · simp only [State.reach, if_neg hvisited, List.mem_append, List.mem_singleton]

/-- While `a` is expanded it counts as queued.  The step to a neighbour keeps what is known, and the
depths of the nodes visited before. -/
theorem Searched.reach
    (h : Searched next start maxDepth depth { s with queue := (a, path) :: s.queue })
    (hdeep : depth a < maxDepth) (hb : b ∈ next a) :
    ∃ depth', Searched next start maxDepth depth'
        { s.reach path b with queue := (a, path) :: (s.reach path b).queue } ∧
      (b ∈ (s.reach path b).visited ∧ depth' b ≤ depth' a + 1) ∧
      ∀ x ∈ s.visited, depth' x = depth x := by
  obtain ⟨ha, hwalk, hlength⟩ := h.queued (a, path) List.mem_cons_self
  have hstep : Walk (Leads next) start b (path ++ [b]) := hwalk.snoc hb
  have hlisted : ∀ p ∈ s.paths ++ [path ++ [b]],
      (∃ x, Walk (Leads next) start x p) ∧ p.length ≤ maxDepth + 1 := by
    intro p hp
    rcases List.mem_append.mp hp with hp | hp
    · exact h.listed p hp
    · obtain rfl := List.mem_singleton.mp hp
      refine ⟨⟨b, hstep⟩, ?_⟩
      rw [List.length_append, hlength, List.length_singleton]
      exact Nat.succ_le_succ hdeep
  by_cases hvisited : b ∈ s.visited
  · refine ⟨depth, ⟨?_, ?_, h.depth_start, ?_, ?_, ?_, ?_, hlisted, ?_, ?_⟩, ⟨?_, ?_⟩,
      fun _ _ => rfl⟩
    all_goals try simp only [State.reach, if_pos hvisited]
    · exact h.nodup
    · exact h.start_mem
    · exact h.queued
    · exact h.sorted
    · exact h.near
    · intro x hx hne
      obtain ⟨p, hp, hpath⟩ := h.found x hx hne
      exact ⟨p, List.mem_append_left _ hp, hpath⟩
    · exact h.within
    · exact h.closed
    · exact hvisited
    · exact h.near (a, path) List.mem_cons_self b hvisited
  · have hold : ∀ x ∈ s.visited, Function.update depth b (depth a + 1) x = depth x := by
      rintro x hx
      rw [Function.update_of_ne]
      rintro rfl
      exact hvisited hx
    have hnew : Function.update depth b (depth a + 1) b = depth a + 1 := Function.update_self ..
    have hfirst : ∀ q ∈ (a, path) :: s.queue, depth a ≤ depth q.1 := by
      intro q hq
      rcases List.mem_cons.mp hq with rfl | hq
      · exact le_rfl
      · exact (List.pairwise_cons.mp h.sorted).1 q hq
    refine ⟨Function.update depth b (depth a + 1), ⟨?_, ?_, ?_, ?_, ?_, ?_, ?_, hlisted, ?_, ?_⟩,
      ⟨?_, ?_⟩, hold⟩
    all_goals try simp only [State.reach, if_neg hvisited]
    · exact List.nodup_append.mpr ⟨h.nodup, List.nodup_singleton b, fun x hx y hy => by
        obtain rfl := List.mem_singleton.mp hy
        rintro rfl
        exact hvisited hx⟩
    · exact List.mem_append_left _ h.start_mem
    · rw [hold start h.start_mem, h.depth_start]
    · intro q hq
      rw [← List.cons_append] at hq
      rcases List.mem_append.mp hq with hq | hq
      · obtain ⟨hmem, hw, hl⟩ := h.queued q hq
        exact ⟨List.mem_append_left _ hmem, hw, by rw [hl, hold q.1 hmem]⟩
      · obtain rfl := List.mem_singleton.mp hq
        refine ⟨List.mem_append_right _ (List.mem_singleton_self b), hstep, ?_⟩
        rw [hnew, List.length_append, hlength, List.length_singleton]
    · rw [← List.cons_append]
      refine List.pairwise_append.mpr ⟨?_, List.pairwise_singleton _ _, fun q hq r hr => ?_⟩
      · refine h.sorted.imp_of_mem fun hq hr hle => ?_
        rw [hold _ (h.queued _ hq).1, hold _ (h.queued _ hr).1]
        exact hle
      · obtain rfl := List.mem_singleton.mp hr
        have hmem := (h.queued q hq).1
        rw [hold q.1 hmem, hnew]
        exact h.near (a, path) List.mem_cons_self q.1 hmem
    · intro q hq x hx
      rw [← List.cons_append] at hq
      rcases List.mem_append.mp hq with hold_q | hq
      · have hq' := hold q.1 (h.queued q hold_q).1
        rcases List.mem_append.mp hx with hx | hx
        · rw [hold x hx, hq']
          exact h.near q hold_q x hx
        · obtain rfl := List.mem_singleton.mp hx
          rw [hnew, hq']
          exact Nat.succ_le_succ (hfirst q hold_q)
      · obtain rfl := List.mem_singleton.mp hq
        rw [hnew]
        rcases List.mem_append.mp hx with hx | hx
        · rw [hold x hx]
          exact (h.near (a, path) List.mem_cons_self x hx).trans (Nat.le_succ _)
        · obtain rfl := List.mem_singleton.mp hx
          rw [hnew]
          exact Nat.le_succ _
    · intro x hx hne
      rcases List.mem_append.mp hx with hx | hx
      · obtain ⟨p, hp, hw, hl⟩ := h.found x hx hne
        exact ⟨p, List.mem_append_left _ hp, hw, by rw [hl, hold x hx]⟩
      · obtain rfl := List.mem_singleton.mp hx
        refine ⟨path ++ [x], List.mem_append_right _ (List.mem_singleton_self _), hstep, ?_⟩
        rw [hnew, List.length_append, hlength, List.length_singleton]
    · intro x hx
      rcases List.mem_append.mp hx with hx | hx
      · rw [hold x hx]
        exact h.within x hx
      · obtain rfl := List.mem_singleton.mp hx
        rw [hnew]
        exact hdeep
    · intro x hx hx'
      rcases List.mem_append.mp hx with hx | hx
      · rw [hold x hx] at hx' ⊢
        rcases h.closed x hx hx' with ⟨p, hp⟩ | hall
        · exact Or.inl ⟨p, List.mem_append_left [(b, path ++ [b])] hp⟩
        · refine Or.inr fun c hc => ⟨List.mem_append_left _ (hall c hc).1, ?_⟩
          rw [hold c (hall c hc).1]
          exact (hall c hc).2
      · obtain rfl := List.mem_singleton.mp hx
        refine Or.inl ⟨path ++ [x], ?_⟩
        rw [← List.cons_append]
        exact List.mem_append_right _ (List.mem_singleton_self _)
    · exact List.mem_append_right _ (List.mem_singleton_self b)
    · rw [hnew, hold a ha]

/-- All the neighbours, one after the other. -/
theorem Searched.reaches (ns : List α) (hns : ∀ b ∈ ns, b ∈ next a)
    (h : Searched next start maxDepth depth { s with queue := (a, path) :: s.queue })
    (hdeep : depth a < maxDepth) :
    ∃ depth', Searched next start maxDepth depth'
        { ns.foldl (fun s b => s.reach path b) s with
          queue := (a, path) :: (ns.foldl (fun s b => s.reach path b) s).queue } ∧
      (∀ b ∈ ns, b ∈ (ns.foldl (fun s b => s.reach path b) s).visited ∧
        depth' b ≤ depth' a + 1) ∧
      ∀ x ∈ s.visited, x ∈ (ns.foldl (fun s b => s.reach path b) s).visited ∧
        depth' x = depth x := by
  induction ns generalizing s depth with
  | nil => exact ⟨depth, h, (fun b hb => nomatch hb), fun x hx => ⟨hx, rfl⟩⟩
  | cons b ns ih =>
    have ha : a ∈ s.visited := (h.queued (a, path) List.mem_cons_self).1
    obtain ⟨depth₁, h₁, ⟨hb, hle⟩, hold₁⟩ := h.reach hdeep (hns b List.mem_cons_self)
    have hsub : ∀ x ∈ s.visited, x ∈ (s.reach path b).visited :=
      fun x hx => mem_reach_visited.mpr (Or.inl hx)
    have hdeep₁ : depth₁ a < maxDepth := by rwa [hold₁ a ha]
    obtain ⟨depth₂, h₂, hall, hold₂⟩ :=
      ih (fun c hc => hns c (List.mem_cons_of_mem _ hc)) h₁ hdeep₁
    refine ⟨depth₂, h₂, fun c hc => ?_, fun x hx => ?_⟩
    · rcases List.mem_cons.mp hc with rfl | hc
      · refine ⟨(hold₂ c hb).1, ?_⟩
        rw [(hold₂ c hb).2, (hold₂ a (hsub a ha)).2]
        exact hle
      · exact hall c hc
    · refine ⟨(hold₂ x (hsub x hx)).1, ?_⟩
      rw [(hold₂ x (hsub x hx)).2, hold₁ x hx]

/-- **One step of the search keeps what is known.** -/
theorem Searched.expand (h : Searched next start maxDepth depth s)
    (hqueue : s.queue = (a, path) :: rest) :
    ∃ depth', Searched next start maxDepth depth' (s.expand next maxDepth a path rest) := by
  obtain ⟨queue, visited, paths⟩ := s
  subst hqueue
  have hlength : path.length - 1 = depth a := by
    rw [(h.queued (a, path) List.mem_cons_self).2.2, Nat.add_sub_cancel]
  by_cases hdeep : maxDepth ≤ path.length - 1
  · rw [State.expand, if_pos hdeep]
    exact ⟨depth, h.pop (s := ⟨rest, visited, paths⟩) (Or.inl (hlength ▸ hdeep))⟩
  · rw [State.expand, if_neg hdeep]
    have hdeep' : depth a < maxDepth := by omega
    obtain ⟨depth', h', hall, -⟩ :=
      Searched.reaches (s := ⟨rest, visited, paths⟩) (next a) (fun _ hb => hb) h hdeep'
    exact ⟨depth', h'.pop (Or.inr hall)⟩

theorem reach_count : (s.reach path b).queue.length + s.visited.length =
    s.queue.length + (s.reach path b).visited.length := by
  by_cases hvisited : b ∈ s.visited
  · simp only [State.reach, if_pos hvisited]
  · simp only [State.reach, if_neg hvisited, List.length_append, List.length_singleton]
    omega

theorem reaches_count (ns : List α) :
    (ns.foldl (fun s b => s.reach path b) s).queue.length + s.visited.length =
      s.queue.length + (ns.foldl (fun s b => s.reach path b) s).visited.length := by
  induction ns generalizing s with
  | nil => rfl
  | cons b ns ih =>
    have hrest := ih (s := s.reach path b)
    have hfirst := @reach_count _ b s path _
    rw [List.foldl_cons]
    omega

/-- What is queued was not visited before. -/
theorem expand_count : (s.expand next maxDepth a path rest).queue.length + s.visited.length =
    rest.length + (s.expand next maxDepth a path rest).visited.length := by
  by_cases hdeep : maxDepth ≤ path.length - 1
  · rw [State.expand, if_pos hdeep]
  · rw [State.expand, if_neg hdeep]
    exact reaches_count (next a)

theorem reaches_subset {known : List α} (ns : List α) (hns : ∀ b ∈ ns, b ∈ known)
    (hs : ∀ x ∈ s.visited, x ∈ known) :
    ∀ x ∈ (ns.foldl (fun s b => s.reach path b) s).visited, x ∈ known := by
  induction ns generalizing s with
  | nil => exact hs
  | cons b ns ih =>
    refine ih (fun c hc => hns c (List.mem_cons_of_mem _ hc)) fun x hx => ?_
    rcases mem_reach_visited.mp hx with hx | rfl
    · exact hs x hx
    · exact hns x List.mem_cons_self

theorem expand_subset {known : List α} (hnext : ∀ b ∈ next a, b ∈ known)
    (hs : ∀ x ∈ s.visited, x ∈ known) :
    ∀ x ∈ (s.expand next maxDepth a path rest).visited, x ∈ known := by
  by_cases hdeep : maxDepth ≤ path.length - 1
  · rw [State.expand, if_pos hdeep]
    exact hs
  · rw [State.expand, if_neg hdeep]
    exact reaches_subset (next a) hnext hs

/-- **The search ends** within as many steps as there are nodes to know. -/
theorem exists_search {known : List α} (hknown : ∀ x ∈ known, ∀ b ∈ next x, b ∈ known)
    (fuel : ℕ) (h : Searched next start maxDepth depth s) (hs : ∀ x ∈ s.visited, x ∈ known)
    (hfuel : s.queue.length + known.length ≤ fuel + s.visited.length) :
    ∃ t, search next maxDepth fuel s = some t ∧ t.queue = [] ∧
      ∃ depth', Searched next start maxDepth depth' t := by
  induction fuel generalizing s depth with
  | zero =>
    have hle : s.visited.length ≤ known.length := (h.nodup.subperm hs).length_le
    have hqueue : s.queue = [] := List.length_eq_zero_iff.mp (by omega)
    refine ⟨s, ?_, hqueue, depth, h⟩
    unfold search
    rw [hqueue]
  | succ fuel ih =>
    unfold search
    match hqueue : s.queue with
    | [] => exact ⟨s, rfl, hqueue, depth, h⟩
    | (a, path) :: rest =>
      obtain ⟨depth', h'⟩ := h.expand hqueue
      have ha : a ∈ s.visited := (h.queued (a, path) (hqueue ▸ List.mem_cons_self)).1
      have hcount := @expand_count _ next a maxDepth s path rest _
      rw [hqueue, List.length_cons] at hfuel
      exact ih h' (expand_subset (hknown a (hs a ha)) hs) (by omega)

theorem search_mono {fuel : ℕ} (k : ℕ) (h : search next maxDepth fuel s = some t) :
    search next maxDepth (fuel + k) s = some t := by
  induction fuel generalizing s with
  | zero =>
    unfold search at h ⊢
    match hqueue : s.queue with
    | [] => simpa only [hqueue] using h
    | _ :: _ => simp only [hqueue, reduceCtorEq] at h
  | succ fuel ih =>
    rw [Nat.add_right_comm]
    unfold search at h ⊢
    match hqueue : s.queue with
    | [] => simpa only [hqueue] using h
    | (a, path) :: rest =>
      simp only [hqueue] at h ⊢
      exact ih h

end

/-! ### When the queue is empty -/

section

variable {α : Type} {next : α → List α} {start x : α} {maxDepth : ℕ} {depth : α → ℕ}
  {s : State α} {p : List α}

/-- Whatever a walk within the depth leads to was visited, no deeper than the walk. -/
theorem Searched.visited_of_walk (h : Searched next start maxDepth depth s) (hqueue : s.queue = [])
    (hwalk : Walk (Leads next) start x p) (hlength : p.length ≤ maxDepth + 1) :
    x ∈ s.visited ∧ depth x + 1 ≤ p.length := by
  induction hn : p.length generalizing p x with
  | zero => exact absurd (List.length_eq_zero_iff.mp hn) hwalk.ne_nil
  | succ n ih =>
    rcases hwalk.cases_snoc with ⟨-, rfl⟩ | ⟨b, q, hq, hx, rfl⟩
    · refine ⟨h.start_mem, ?_⟩
      rw [h.depth_start]
      exact Nat.succ_le_succ (Nat.zero_le n)
    · rw [List.length_append, List.length_singleton] at hlength hn
      obtain ⟨hb, hdepth⟩ := ih hq (by omega) (by omega)
      rcases h.closed b hb (by omega) with ⟨r, hr⟩ | hall
      · exact absurd (hqueue ▸ hr) List.not_mem_nil
      · obtain ⟨hmem, hle⟩ := hall x hx
        exact ⟨hmem, by omega⟩

/-- The nodes visited are as deep as they are distant. -/
theorem Searched.distance (h : Searched next start maxDepth depth s) (hqueue : s.queue = [])
    (hx : x ∈ s.visited) : Distance (Leads next) start x (depth x) := by
  have hwithin := h.within x hx
  refine ⟨?_, fun p hp => ?_⟩
  · by_cases hstart : x = start
    · subst hstart
      exact ⟨[x], .single x, by rw [h.depth_start]; rfl⟩
    · obtain ⟨p, -, hp⟩ := h.found x hx hstart
      exact ⟨p, hp⟩
  · by_cases hlength : p.length ≤ maxDepth + 1
    · exact (h.visited_of_walk hqueue hp hlength).2
    · omega

/-- **The nodes visited are those within the depth.** -/
theorem Searched.mem_visited_iff (h : Searched next start maxDepth depth s)
    (hqueue : s.queue = []) :
    x ∈ s.visited ↔ ∃ n ≤ maxDepth, Distance (Leads next) start x n := by
  constructor
  · intro hx
    exact ⟨depth x, h.within x hx, h.distance hqueue hx⟩
  · intro hx
    obtain ⟨n, hn, ⟨p, hp, hlength⟩, -⟩ := hx
    exact (h.visited_of_walk hqueue hp (by omega)).1

/-- **A node visited other than the start has a shortest path listed.** -/
theorem Searched.shortest (h : Searched next start maxDepth depth s) (hqueue : s.queue = [])
    (hx : x ∈ s.visited) (hstart : x ≠ start) :
    ∃ n p, p ∈ s.paths ∧ Walk (Leads next) start x p ∧ p.length = n + 1 ∧
      Distance (Leads next) start x n := by
  obtain ⟨p, hp, hwalk, hlength⟩ := h.found x hx hstart
  exact ⟨depth x, p, hp, hwalk, hlength, h.distance hqueue hx⟩

end

end Bfs
