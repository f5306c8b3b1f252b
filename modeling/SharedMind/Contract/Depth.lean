import SharedMind.Gen.Loop
import SharedMind.Gen.Nesting

/-!
# Nesting limits

Three functions named `_json_depth_exceeds` walk a value with a stack of their own.

* `kernelStep`, `workspaceStep`, `taskTraceStep`: a turn of each loop.  A container is known by its
  identity; the top of the stack is its first element.
* `kernel_returns`: **the kernel's loop ends on every value**, cyclic or not.
* `workspace_returns`, `taskTrace_returns`: the others, on values without a cycle.
* `depth_checks_exact_iff`: when all three are exact.
-/

namespace SharedMind.Depth

open Loop Nesting

/-- A dict or a list; `none` is an item that is neither. -/
inductive Container (ι : Type) where
  | dict (members : List (String × Option ι))
  | list (items : List (Option ι))

/-- `item.values()` of a dict, and the items of a list. -/
def Container.items {ι : Type} : Container ι → List (Option ι)
  | dict members => members.map Prod.snd
  | list items => items

variable {ι : Type} [DecidableEq ι]

/-! ### The kernel -/

structure KernelState (ι : Type) where
  stack : List (Option ι × ℕ × Bool)
  active : Finset ι

/-- `_json_depth_exceeds` of the kernel. -/
def kernelStep (heap : ι → Container ι) (maximum : ℤ) (s : KernelState ι) :
    KernelState ι ⊕ Bool :=
  match s.stack with
  | [] => .inr false
  | (none, _, _) :: stack => .inl ⟨stack, s.active⟩
  | (some i, parentDepth, leaving) :: stack =>
    if leaving then .inl ⟨stack, s.active.erase i⟩
    else if i ∈ s.active then .inl ⟨stack, s.active⟩
    else
      let depth := parentDepth + 1
      if maximum < (depth : ℤ) then .inr true
      else .inl ⟨(heap i).items.reverse.map (fun c => (c, depth, false)) ++
        (some i, parentDepth, true) :: stack, insert i s.active⟩

/-! ### The workspace -/

/-- `_json_depth_exceeds` of the workspace. -/
def workspaceStep (heap : ι → Container ι) (maximum : ℤ) (stack : List (Option ι × ℕ)) :
    List (Option ι × ℕ) ⊕ Bool :=
  match stack with
  | [] => .inr false
  | (none, _) :: stack => .inl stack
  | (some i, parentDepth) :: stack =>
    let depth := parentDepth + 1
    match heap i with
    | .dict members =>
      if maximum < (depth : ℤ) then .inr true
      else .inl ((members.map Prod.snd).reverse.map (fun c => (c, depth)) ++ stack)
    | .list items =>
      if maximum < (depth : ℤ) then .inr true
      else .inl (items.reverse.map (fun c => (c, depth)) ++ stack)

/-! ### The task trace -/

structure TaskTraceError where
  code : String
  message : String
  deriving DecidableEq

def cycleError : TaskTraceError := ⟨"TASK_TRACE_INVALID", "Task trace contains a cycle."⟩

structure TraceState (ι : Type) where
  stack : List (Option ι × ℕ)
  seen : Finset ι

/-- `_json_depth_exceeds` of the task trace; an item stands with its own depth. -/
def taskTraceStep (heap : ι → Container ι) (limit : ℤ) (s : TraceState ι) :
    TraceState ι ⊕ Except TaskTraceError Bool :=
  match s.stack with
  | [] => .inr (.ok false)
  | (none, _) :: stack => .inl ⟨stack, s.seen⟩
  | (some i, depth) :: stack =>
    if i ∈ s.seen then .inr (.error cycleError)
    else if limit < (depth : ℤ) then .inr (.ok true)
    else .inl ⟨(heap i).items.reverse.map (fun c => (c, depth + 1)) ++ stack, insert i s.seen⟩

/-! ### Each of them -/

section

variable {heap : ι → Container ι} {maximum : ℤ}

/-- The items of a container are walked one by one. -/
theorem kernel_items {active : Finset ι} {d : ℕ}
    (ih : ∀ (x : Option ι) (stack : List (Option ι × ℕ × Bool)),
      (DeepApart (fun i => (heap i).items) maximum active x d →
        Returns (kernelStep heap maximum) ⟨(x, d, false) :: stack, active⟩ true) ∧
      (¬DeepApart (fun i => (heap i).items) maximum active x d → ∀ b,
        Returns (kernelStep heap maximum) ⟨stack, active⟩ b →
        Returns (kernelStep heap maximum) ⟨(x, d, false) :: stack, active⟩ b))
    (cs : List (Option ι)) (stack : List (Option ι × ℕ × Bool)) :
    ((∃ c ∈ cs, DeepApart (fun i => (heap i).items) maximum active c d) →
      Returns (kernelStep heap maximum) ⟨cs.map (fun c => (c, d, false)) ++ stack, active⟩ true) ∧
    ((¬∃ c ∈ cs, DeepApart (fun i => (heap i).items) maximum active c d) → ∀ b,
      Returns (kernelStep heap maximum) ⟨stack, active⟩ b →
      Returns (kernelStep heap maximum) ⟨cs.map (fun c => (c, d, false)) ++ stack, active⟩ b) := by
  induction cs with
  | nil => exact ⟨fun ⟨c, hc, _⟩ => absurd hc List.not_mem_nil, fun _ b h => h⟩
  | cons c cs ihcs =>
    obtain ⟨hdeep, hflat⟩ := ih c (cs.map (fun c => (c, d, false)) ++ stack)
    by_cases hc : DeepApart (fun i => (heap i).items) maximum active c d
    · refine ⟨fun _ => hdeep hc, ?_⟩
      intro h
      exact absurd ⟨c, List.mem_cons_self, hc⟩ h
    · constructor
      · rintro ⟨e, he, hdeepe⟩
        obtain rfl | he := List.mem_cons.mp he
        · exact absurd hdeepe hc
        · exact hflat hc true (ihcs.1 ⟨e, he, hdeepe⟩)
      · intro h b hb
        refine hflat hc b (ihcs.2 ?_ b hb)
        rintro ⟨e, he, hdeepe⟩
        exact h ⟨e, List.mem_cons_of_mem c he, hdeepe⟩

/-- An item is left behind as it was met, unless it is too deep.  The containers it is in are
active, and there are only so many others. -/
theorem kernel_item [Fintype ι] (n : ℕ) : ∀ (active : Finset ι), activeᶜ.card = n →
    ∀ (x : Option ι) (d : ℕ) (stack : List (Option ι × ℕ × Bool)),
      (DeepApart (fun i => (heap i).items) maximum active x d →
        Returns (kernelStep heap maximum) ⟨(x, d, false) :: stack, active⟩ true) ∧
      (¬DeepApart (fun i => (heap i).items) maximum active x d → ∀ b,
        Returns (kernelStep heap maximum) ⟨stack, active⟩ b →
        Returns (kernelStep heap maximum) ⟨(x, d, false) :: stack, active⟩ b) := by
  induction n using Nat.strong_induction_on with
  | _ n ih =>
    intro active hcard x d stack
    cases x with
    | none => exact ⟨fun h => absurd h not_deepApart_none, fun _ b hb => hb.next rfl⟩
    | some i =>
      by_cases hi : i ∈ active
      · refine ⟨fun h => absurd h (not_deepApart_active hi), ?_⟩
        intro _ b hb
        refine hb.next ?_
        simp [kernelStep, hi]
      · rw [deepApart_container hi]
        by_cases hm : maximum < (d : ℤ) + 1
        · refine ⟨fun _ => .now (by simp [kernelStep, hi, hm]), ?_⟩
          intro h
          exact absurd (Or.inl hm) h
        · have hstep : kernelStep heap maximum ⟨(some i, d, false) :: stack, active⟩ =
              .inl ⟨(heap i).items.reverse.map (fun c => (c, d + 1, false)) ++
                (some i, d, true) :: stack, insert i active⟩ := by
            simp [kernelStep, hi, hm]
          have hlt : (insert i active)ᶜ.card < n := by
            rw [← hcard]
            apply Finset.card_lt_card
            rw [Finset.compl_ssubset_compl]
            exact Finset.ssubset_insert hi
          obtain ⟨hdeep, hflat⟩ := kernel_items
            (fun x stack => ih _ hlt (insert i active) rfl x (d + 1) stack)
            (heap i).items.reverse ((some i, d, true) :: stack)
          simp only [List.mem_reverse] at hdeep hflat
          constructor
          · intro h
            exact (hdeep (h.resolve_left hm)).next hstep
          · intro h b hb
            rw [not_or] at h
            refine (hflat h.2 b (hb.next ?_)).next hstep
            simp [kernelStep, Finset.erase_insert hi]

/-- The containers met up to the first place that is deeper than `m`. -/
def upTo (m : ℤ) : List (ι × ℕ) → List ι
  | [] => []
  | (i, k) :: p => if m < (k : ℤ) then [i] else i :: upTo m p

/-- What the loop of the task trace makes of the places it meets. -/
def scan (m : ℤ) (seen : Finset ι) : List (ι × ℕ) → Except TaskTraceError Bool
  | [] => .ok false
  | (i, k) :: p =>
    if i ∈ seen then .error cycleError
    else if m < (k : ℤ) then .ok true
    else scan m (insert i seen) p

omit [DecidableEq ι] in
theorem workspace_places (maximum : ℤ) {s : List (Option ι × ℕ)} {p : List (ι × ℕ)}
    (h : Unfolds (fun i => (heap i).items) s p) :
    ∃ b, Returns (workspaceStep heap maximum) s b ∧
      (b = true ↔ ∃ e ∈ p, maximum < (e.2 : ℤ)) := by
  induction h with
  | nil => exact ⟨false, .now rfl, by simp⟩
  | other _ ih =>
    obtain ⟨b, hb, hiff⟩ := ih
    exact ⟨b, hb.next rfl, hiff⟩
  | @container i d s p _ ih =>
    obtain ⟨b, hb, hiff⟩ := ih
    rw [List.exists_mem_cons_iff]
    by_cases hm : maximum < ((d + 1 : ℕ) : ℤ)
    · refine ⟨true, .now ?_, by simp only [hm, true_or]⟩
      cases hi : heap i with
      | dict members => simp only [workspaceStep, hi, if_pos hm]
      | list items => simp only [workspaceStep, hi, if_pos hm]
    · refine ⟨b, hb.next ?_, by simp only [hm, false_or, hiff]⟩
      cases hi : heap i with
      | dict members => simp only [workspaceStep, hi, if_neg hm, Container.items]
      | list items => simp only [workspaceStep, hi, if_neg hm, Container.items]

theorem taskTrace_places (maximum : ℤ) {s : List (Option ι × ℕ)} {p : List (ι × ℕ)}
    (h : Unfolds (fun i => (heap i).items) s p) (seen : Finset ι) :
    Returns (taskTraceStep heap maximum) ⟨s.map fun e => (e.1, e.2 + 1), seen⟩
      (scan maximum seen p) := by
  induction h generalizing seen with
  | nil => exact .now rfl
  | other _ ih => exact (ih seen).next rfl
  | @container i d s p _ ih =>
    rw [scan]
    by_cases hi : i ∈ seen
    · rw [if_pos hi]
      exact .now (by simp [taskTraceStep, hi])
    · rw [if_neg hi]
      by_cases hm : maximum < ((d + 1 : ℕ) : ℤ)
      · rw [if_pos hm]
        exact .now (by simp only [taskTraceStep, List.map_cons, if_neg hi, if_pos hm])
      · rw [if_neg hm]
        refine (ih (insert i seen)).next ?_
        simp only [taskTraceStep, List.map_cons, if_neg hi, if_neg hm, List.map_append,
          List.map_map]
        rfl

/-- It raises if a container comes again before the first that is too deep. -/
theorem scan_eq (m : ℤ) (seen : Finset ι) (p : List (ι × ℕ)) :
    ((upTo m p).Nodup ∧ (∀ i ∈ upTo m p, i ∉ seen) →
      ∃ b, scan m seen p = .ok b ∧ (b = true ↔ ∃ e ∈ p, m < (e.2 : ℤ))) ∧
    (¬((upTo m p).Nodup ∧ ∀ i ∈ upTo m p, i ∉ seen) → scan m seen p = .error cycleError) := by
  induction p generalizing seen with
  | nil => exact ⟨fun _ => ⟨false, rfl, by simp⟩, fun h => absurd ⟨.nil, by simp [upTo]⟩ h⟩
  | cons e p ih =>
    obtain ⟨i, k⟩ := e
    rw [scan, upTo, List.exists_mem_cons_iff]
    by_cases hi : i ∈ seen
    · rw [if_pos hi]
      refine ⟨?_, fun _ => rfl⟩
      rintro ⟨-, hapart⟩
      refine absurd hi (hapart i ?_)
      split
      · exact List.mem_singleton_self i
      · exact List.mem_cons_self
    · rw [if_neg hi]
      by_cases hm : m < (k : ℤ)
      · rw [if_pos hm, if_pos hm]
        refine ⟨fun _ => ⟨true, rfl, by simp only [hm, true_or]⟩, ?_⟩
        intro h
        refine absurd ⟨List.nodup_singleton i, ?_⟩ h
        intro j hj
        rwa [List.mem_singleton.mp hj]
      · rw [if_neg hm, if_neg hm]
        have hsame : ((i :: upTo m p).Nodup ∧ ∀ j ∈ i :: upTo m p, j ∉ seen) ↔
            ((upTo m p).Nodup ∧ ∀ j ∈ upTo m p, j ∉ insert i seen) := by
          rw [List.nodup_cons, List.forall_mem_cons]
          constructor
          · rintro ⟨⟨hnot, hnodup⟩, -, hapart⟩
            refine ⟨hnodup, ?_⟩
            intro j hj
            rw [Finset.mem_insert, not_or]
            exact ⟨fun h => hnot (h ▸ hj), hapart j hj⟩
          · rintro ⟨hnodup, hapart⟩
            refine ⟨⟨fun h => hapart i h (Finset.mem_insert_self i seen), hnodup⟩, hi, ?_⟩
            intro j hj h
            exact hapart j hj (Finset.mem_insert_of_mem h)
        obtain ⟨hok, herror⟩ := ih (insert i seen)
        rw [hsame]
        refine ⟨?_, herror⟩
        intro h
        obtain ⟨b, hb, hiff⟩ := hok h
        exact ⟨b, hb, by simp only [hm, false_or, hiff]⟩

end

/-! ### All three -/

section

variable (heap : ι → Container ι) (root : Option ι) (maximum : ℤ)

/-- A container is nested deeper than the maximum: a chain leads to it. -/
def Deeper : Prop := ∃ l, Chain (fun i => (heap i).items) root l ∧ maximum < (l.length : ℤ)

/-- Some chain of different containers is longer than the maximum. -/
def DeeperApart : Prop :=
  ∃ l, Chain (fun i => (heap i).items) root l ∧ l.Nodup ∧ maximum < (l.length : ℤ)

def KernelAnswers (b : Bool) : Prop :=
  Returns (kernelStep heap maximum) ⟨[(root, 0, false)], ∅⟩ b

def WorkspaceAnswers (b : Bool) : Prop := Returns (workspaceStep heap maximum) [(root, 0)] b

def TaskTraceAnswers (answer : Except TaskTraceError Bool) : Prop :=
  Returns (taskTraceStep heap maximum) ⟨[(root, 1)], ∅⟩ answer

/-- Without a cycle all three tell whether a container is too deep, and the kernel's tells in any
case whether a chain of different containers is too long. -/
structure DepthChecksExact : Prop where
  acyclic : Acyclic (fun i => (heap i).items) root →
    (∃ b, KernelAnswers heap root maximum b ∧ (b = true ↔ Deeper heap root maximum)) ∧
    (∃ b, WorkspaceAnswers heap root maximum b ∧ (b = true ↔ Deeper heap root maximum)) ∧
    ∃ b, TaskTraceAnswers heap root maximum (.ok b) ∧ (b = true ↔ Deeper heap root maximum)
  cyclic : ¬Acyclic (fun i => (heap i).items) root →
    ∃ b, KernelAnswers heap root maximum b ∧ (b = true ↔ DeeperApart heap root maximum)

variable {heap root maximum}

/-- **The kernel's loop ends**, and tells whether some chain of different containers is too long. -/
theorem kernel_returns [Fintype ι] :
    ∃ b, KernelAnswers heap root maximum b ∧ (b = true ↔ DeeperApart heap root maximum) := by
  have hdeep : DeepApart (fun i => (heap i).items) maximum ∅ root 0 ↔
      DeeperApart heap root maximum := by
    simp only [DeepApart, DeeperApart, Finset.notMem_empty, not_false_eq_true, implies_true,
      true_and, Nat.cast_zero, zero_add]
  have hitem : (DeepApart (fun i => (heap i).items) maximum ∅ root 0 →
        KernelAnswers heap root maximum true) ∧
      (¬DeepApart (fun i => (heap i).items) maximum ∅ root 0 → ∀ b,
        Returns (kernelStep heap maximum) ⟨[], ∅⟩ b → KernelAnswers heap root maximum b) :=
    kernel_item _ ∅ rfl root 0 []
  obtain ⟨htrue, hfalse⟩ := hitem
  rw [hdeep] at htrue hfalse
  by_cases h : DeeperApart heap root maximum
  · exact ⟨true, htrue h, by simp [h]⟩
  · exact ⟨false, hfalse h false (.now rfl), by simp [h]⟩

omit [DecidableEq ι] in
theorem deeperApart_iff (h : Acyclic (fun i => (heap i).items) root) :
    DeeperApart heap root maximum ↔ Deeper heap root maximum := by
  constructor
  · rintro ⟨l, hl, -, hm⟩
    exact ⟨l, hl, hm⟩
  · rintro ⟨l, hl, hm⟩
    exact ⟨l, hl, hl.nodup h, hm⟩

omit [DecidableEq ι] in
theorem deep_place_iff {p : List (ι × ℕ)} (h : Unfolds (fun i => (heap i).items) [(root, 0)] p) :
    (∃ e ∈ p, maximum < (e.2 : ℤ)) ↔ Deeper heap root maximum := by
  rw [h.deep_iff, Deeper]
  simp

omit [DecidableEq ι] in
/-- **The workspace's loop** tells whether a container of the tree is too deep. -/
theorem workspace_returns [Finite ι] (h : Acyclic (fun i => (heap i).items) root) :
    ∃ b, WorkspaceAnswers heap root maximum b ∧ (b = true ↔ Deeper heap root maximum) := by
  obtain ⟨p, hp⟩ := h.exists_unfolds
  obtain ⟨b, hb, hiff⟩ := workspace_places maximum hp
  exact ⟨b, hb, hiff.trans (deep_place_iff hp)⟩

/-- **The loop of the task trace** does so too when it meets no container twice before one that is
too deep, and else it raises. -/
theorem taskTrace_returns {p : List (ι × ℕ)}
    (hp : Unfolds (fun i => (heap i).items) [(root, 0)] p) :
    ((upTo maximum p).Nodup →
      ∃ b, TaskTraceAnswers heap root maximum (.ok b) ∧ (b = true ↔ Deeper heap root maximum)) ∧
    (¬(upTo maximum p).Nodup → TaskTraceAnswers heap root maximum (.error cycleError)) := by
  have hplaces := taskTrace_places maximum hp ∅
  have hseen : ((upTo maximum p).Nodup ∧ ∀ i ∈ upTo maximum p, i ∉ (∅ : Finset ι)) ↔
      (upTo maximum p).Nodup := by simp
  obtain ⟨hok, herror⟩ := scan_eq maximum ∅ p
  rw [hseen] at hok herror
  constructor
  · intro h
    obtain ⟨b, hb, hiff⟩ := hok h
    exact ⟨b, hb ▸ hplaces, hiff.trans (deep_place_iff hp)⟩
  · intro h
    exact herror h ▸ hplaces

/-- **When all three are exact**: in the tree of an acyclic value, no container comes twice up to
the first that is too deep, the last item of each container first. -/
theorem depth_checks_exact_iff {ι : Type} [Fintype ι] [DecidableEq ι] (heap : ι → Container ι)
    (root : Option ι) (maximum : ℤ) : DepthChecksExact heap root maximum ↔
    (Acyclic (fun i => (heap i).items) root →
      ∀ p, Unfolds (fun i => (heap i).items) [(root, 0)] p → (upTo maximum p).Nodup) := by
  constructor
  · intro h hacyclic p hp
    by_contra hnot
    obtain ⟨-, -, b, hb, -⟩ := h.acyclic hacyclic
    exact nomatch hb.unique ((taskTrace_returns hp).2 hnot)
  · intro h
    refine ⟨?_, fun _ => kernel_returns⟩
    intro hacyclic
    obtain ⟨b, hb, hiff⟩ : ∃ b, KernelAnswers heap root maximum b ∧
        (b = true ↔ DeeperApart heap root maximum) := kernel_returns
    obtain ⟨p, hp⟩ := hacyclic.exists_unfolds
    exact ⟨⟨b, hb, hiff.trans (deeperApart_iff hacyclic)⟩, workspace_returns hacyclic,
      (taskTrace_returns hp).1 (h hacyclic p hp)⟩

end

/-- A list that holds an empty list twice. -/
def sharedHeap (i : Fin 2) : Container (Fin 2) := .list (if i = 0 then [some 1, some 1] else [])

theorem sharedHeap_acyclic : Acyclic (fun i => (sharedHeap i).items) (some 0) := by
  have hup : ∀ i j, Holds (fun i => (sharedHeap i).items) i j → i < j := by
    unfold Holds
    decide
  intro r _ i _ h
  have hlt : ∀ {i j}, Relation.TransGen (Holds fun i => (sharedHeap i).items) i j → i < j := by
    intro i j h
    induction h with
    | single h => exact hup _ _ h
    | tail _ h ih => exact ih.trans (hup _ _ h)
  exact lt_irrefl i (hlt h)

/-- The task trace takes it for a cycle. -/
theorem shared_taken_for_cycle : ¬DepthChecksExact sharedHeap (some 0) 64 := by
  intro h
  obtain ⟨-, -, b, hb, -⟩ := h.acyclic sharedHeap_acyclic
  have hraises : TaskTraceAnswers sharedHeap (some 0) 64 (.error cycleError) :=
    .of_run (n := 4) rfl
  exact nomatch hb.unique hraises

end SharedMind.Depth
