import SharedMind.Py.Zip
import SharedMind.Setup.Hooks

/-!
# What an installation keeps

* `Kept`: entries without their managed hooks, in order; `kept_preserve` says that is what is kept.
* `Installed`: the new document, member by member.
* `Client`: Claude and Codex, with what differs between them.
* `hooks_preserved`: **the new file holds the old one, and a second installation changes nothing.**
-/

namespace SharedMind.Setup

open Py

/-! ### Dicts in key order -/

/-- The dict is listed in key order, and so is what it holds. -/
def Ordered (members : Members) : Prop := (JsonOf.obj members).Sorted

theorem Ordered.keys {members : Members} (h : Ordered members) :
    (members.map Prod.fst).Pairwise (· < ·) := by
  cases h with
  | obj hkeys _ => exact hkeys

theorem Ordered.get? {members : Members} (h : Ordered members) {key : String} {v : Json}
    (hv : (JsonOf.obj members).get? key = some v) : v.Sorted := by
  cases h with
  | obj _ hsorted => exact hsorted _ (JsonOf.mem_of_get? hv)

theorem Ordered.insert {members : Members} (h : Ordered members) {key : String} {v : Json}
    (hv : v.Sorted) : Ordered (insertMember key v members) := by
  refine .obj (insertMember_sorted h.keys) ?_
  intro m hm
  obtain rfl | hm := mem_insertMember hm
  · exact hv
  · cases h with
    | obj _ hsorted => exact hsorted m hm

theorem Ordered.erase {members : Members} (h : Ordered members) (key : String) :
    Ordered (eraseMember key members) := by
  refine .obj (h.keys.sublist (List.filter_sublist.map _)) ?_
  intro m hm
  cases h with
  | obj _ hsorted => exact hsorted m (List.mem_filter.mp hm).1

/-! ### Entries -/

/-- The hooks an entry lists. -/
def hooksIn (entry : Json) : List Json :=
  match entry.get? "hooks" with
  | some (.arr hooks) => hooks
  | _ => []

def unmanaged (hook : Json) : Bool := !managedHookCommand hook

/-- The entry with its managed hooks taken out. -/
structure Trimmed (entry entry' : Json) : Prop where
  hooks : entry'.get? "hooks" = some (.arr ((hooksIn entry).filter unmanaged))
  others : ∀ key, key ≠ "hooks" → entry'.get? key = entry.get? key

/-- The entries of an event and what is kept of them: an entry without managed hooks as it is, an
entry with others without the managed ones, and of an entry with managed hooks alone nothing. -/
inductive Kept : List Json → List Json → Prop
  | nil : Kept [] []
  | whole {entry : Json} {entries kept : List Json} :
      (∀ hook ∈ hooksIn entry, managedHookCommand hook = false) → Kept entries kept →
      Kept (entry :: entries) (entry :: kept)
  | part {entry entry' : Json} {entries kept : List Json} : (hooksIn entry).filter unmanaged ≠ [] →
      Trimmed entry entry' → Kept entries kept → Kept (entry :: entries) (entry' :: kept)
  | gone {entry : Json} {entries kept : List Json} : hooksIn entry ≠ [] →
      (∀ hook ∈ hooksIn entry, managedHookCommand hook = true) → Kept entries kept →
      Kept (entry :: entries) kept

theorem get?_of_not_obj {v : Json} (h : ∀ ms, v ≠ .obj ms) (key : String) : v.get? key = none := by
  cases v with
  | obj ms => exact absurd rfl (h ms)
  | _ => rfl

theorem hooksIn_of_arr {entry : Json} {hooks : List Json}
    (h : entry.get? "hooks" = some (.arr hooks)) : hooksIn entry = hooks := by
  rw [hooksIn, h]

/-- What is kept of one entry. -/
theorem preserveEntry_cases {entry : Json} (hsorted : entry.Sorted) :
    (∀ hook ∈ hooksIn entry, managedHookCommand hook = false) ∧
        preserveEntry entry = some entry ∨
      (∃ entry', (hooksIn entry).filter unmanaged ≠ [] ∧ Trimmed entry entry' ∧ entry'.Sorted ∧
        preserveEntry entry = some entry' ∧ preserveEntry entry' = some entry') ∨
      hooksIn entry ≠ [] ∧ (∀ hook ∈ hooksIn entry, managedHookCommand hook = true) ∧
        preserveEntry entry = none := by
  by_cases harr : ∃ ms hooks, entry = .obj ms ∧ entry.get? "hooks" = some (.arr hooks)
  · obtain ⟨ms, hooks, rfl, hget⟩ := harr
    have hordered : Ordered ms := hsorted
    have hkeys := hordered.keys
    have hunmanaged : (JsonOf.arr (hooks.filter unmanaged)).Sorted := by
      cases hordered.get? hget with
      | arr h => exact .arr fun hook hhook => h hook (List.mem_filter.mp hhook).1
    rw [hooksIn_of_arr hget]
    by_cases hall : (hooks.filter unmanaged).length = hooks.length
    · refine Or.inl ⟨?_, ?_⟩
      · intro hook hhook
        have h := List.length_filter_eq_length_iff.mp hall hook hhook
        rw [unmanaged, Bool.not_eq_true'] at h
        exact h
      · simp only [preserveEntry, hget]
        exact if_pos hall
    · by_cases hsome : hooks.filter unmanaged = []
      · refine Or.inr (Or.inr ⟨?_, ?_, ?_⟩)
        · intro hnil
          rw [hnil] at hall
          exact hall rfl
        · intro hook hhook
          have h := List.filter_eq_nil_iff.mp hsome hook hhook
          rw [unmanaged, Bool.not_eq_true', Bool.not_eq_false] at h
          exact h
        · simp only [preserveEntry, hget]
          refine (if_neg hall).trans ?_
          exact if_neg (not_not.mpr hsome)
      · have hget' : (JsonOf.obj (insertMember "hooks" (.arr (hooks.filter unmanaged)) ms)).get?
            "hooks" = some (.arr (hooks.filter unmanaged)) := by
          rw [JsonOf.get?_insertMember hkeys, if_pos rfl]
        refine Or.inr (Or.inl ⟨.obj (insertMember "hooks" (.arr (hooks.filter unmanaged)) ms), hsome,
          ⟨?_, ?_⟩, hordered.insert hunmanaged, ?_, ?_⟩)
        · rw [hooksIn_of_arr hget]
          exact hget'
        · intro key hkey
          rw [JsonOf.get?_insertMember hkeys, if_neg (Ne.symm hkey)]
        · simp only [preserveEntry, hget]
          refine (if_neg hall).trans ?_
          exact if_pos hsome
        · simp only [preserveEntry, hget']
          refine if_pos ?_
          show ((hooks.filter unmanaged).filter unmanaged).length = _
          rw [List.filter_filter, List.filter_congr fun _ _ => Bool.and_self _]
  · have hnone : hooksIn entry = [] ∧ preserveEntry entry = some entry := by
      cases entry with
      | obj ms =>
        cases hget : (JsonOf.obj ms).get? "hooks" with
        | none => simp only [hooksIn, preserveEntry, hget, and_self]
        | some hooks =>
          cases hooks with
          | arr hooks => exact absurd ⟨ms, hooks, rfl, hget⟩ harr
          | _ => simp only [hooksIn, preserveEntry, hget, and_self]
      | _ => exact ⟨rfl, rfl⟩
    refine Or.inl ⟨?_, hnone.2⟩
    rw [hnone.1]
    exact fun _ h => absurd h List.not_mem_nil

/-- **What is kept.** -/
theorem kept_preserve {entries : List Json} (h : ∀ entry ∈ entries, entry.Sorted) :
    Kept entries (preserveUnmanagedHooks entries) := by
  induction entries with
  | nil => exact .nil
  | cons entry entries ih =>
    have hrest := ih fun e he => h e (List.mem_cons_of_mem _ he)
    obtain ⟨hall, hsame⟩ | ⟨entry', hsome, htrimmed, -, hpart, -⟩ | ⟨hne, hall, hgone⟩ :=
      preserveEntry_cases (h entry List.mem_cons_self)
    · rw [preserveUnmanagedHooks, List.filterMap_cons_some hsame]
      exact .whole hall hrest
    · rw [preserveUnmanagedHooks, List.filterMap_cons_some hpart]
      exact .part hsome htrimmed hrest
    · rw [preserveUnmanagedHooks, List.filterMap_cons_none hgone]
      exact .gone hne hall hrest

/-- What is kept is kept again. -/
theorem preserve_preserve {entries : List Json} (h : ∀ entry ∈ entries, entry.Sorted) :
    preserveUnmanagedHooks (preserveUnmanagedHooks entries) = preserveUnmanagedHooks entries := by
  induction entries with
  | nil => rfl
  | cons entry entries ih =>
    have hrest := ih fun e he => h e (List.mem_cons_of_mem _ he)
    rw [preserveUnmanagedHooks, preserveUnmanagedHooks] at hrest
    rw [preserveUnmanagedHooks, preserveUnmanagedHooks]
    obtain ⟨-, hsame⟩ | ⟨entry', -, -, -, hpart, hagain⟩ | ⟨-, -, hgone⟩ :=
      preserveEntry_cases (h entry List.mem_cons_self)
    · rw [List.filterMap_cons_some hsame, List.filterMap_cons_some hsame, hrest]
    · rw [List.filterMap_cons_some hpart, List.filterMap_cons_some hagain, hrest]
    · rw [List.filterMap_cons_none hgone, hrest]

/-! ### Events -/

/-- The entries under a key; none without it. -/
def EntriesAt (members : Members) (key : String) (entries : List Json) : Prop :=
  match (JsonOf.obj members).get? key with
  | none => entries = []
  | some v => v = .arr entries

theorem entriesOf_eq_ok {members : Members} {key : String} {e : HookExc} {entries : List Json} :
    entriesOf members key e = .ok entries ↔ EntriesAt members key entries := by
  rw [entriesOf, EntriesAt]
  cases (JsonOf.obj members).get? key with
  | none => exact ⟨fun h => (Except.ok.inj h).symm, fun h => congrArg _ h.symm⟩
  | some v =>
    cases v with
    | arr es =>
      exact ⟨fun h => congrArg _ (Except.ok.inj h), fun h => congrArg _ (JsonOf.arr.inj h)⟩
    | _ => exact ⟨fun h => (nomatch h), fun h => (nomatch h)⟩

theorem entriesOf_eq_error {members : Members} {key : String} {e e' : HookExc}
    (h : entriesOf members key e = .error e') : e' = e := by
  rw [entriesOf] at h
  split at h
  · exact nomatch h
  · exact nomatch h
  · exact (Except.error.inj h).symm

theorem Ordered.entries {members : Members} (h : Ordered members) {key : String}
    {entries : List Json} (he : EntriesAt members key entries) : ∀ e ∈ entries, e.Sorted := by
  rw [EntriesAt] at he
  split at he
  · rw [he]
    exact fun _ h => absurd h List.not_mem_nil
  · next v hv =>
    subst he
    cases h.get? hv with
    | arr hsorted => exact hsorted

theorem preserve_sorted {entries : List Json} (h : ∀ e ∈ entries, e.Sorted) :
    ∀ e ∈ preserveUnmanagedHooks entries, e.Sorted := by
  intro e he
  obtain ⟨entry, hentry, hpreserved⟩ := List.mem_filterMap.mp he
  obtain ⟨-, hsame⟩ | ⟨entry', -, -, hsorted, hpart, -⟩ | ⟨-, -, hgone⟩ :=
    preserveEntry_cases (h entry hentry)
  · obtain rfl := Option.some.inj (hsame.symm.trans hpreserved)
    exact h _ hentry
  · obtain rfl := Option.some.inj (hpart.symm.trans hpreserved)
    exact hsorted
  · rw [hgone] at hpreserved
    exact nomatch hpreserved

/-! ### The fold over the events -/

section

variable {σ : Type} {hooks : σ → Members} {found : σ → String → List Json → Prop}
  {step : σ → String × Json → Except HookExc σ}

/-- What a step does to an event, and that it leaves the others. -/
structure Installs (hooks : σ → Members) (found : σ → String → List Json → Prop) (s : σ)
    (e : String × Json) (s' : σ) : Prop where
  event : ∃ entries, found s e.1 entries ∧ (∀ entry ∈ entries, entry.Sorted) ∧
    hooks s' = insertMember e.1 (.arr (preserveUnmanagedHooks entries ++ [e.2])) (hooks s)
  others : ∀ key entries, key ≠ e.1 → (found s' key entries ↔ found s key entries)

/-- What the hooks are once every event is installed. -/
structure EventsInstalled (hooks : σ → Members) (found : σ → String → List Json → Prop) (s : σ)
    (events : List (String × Json)) (s' : σ) : Prop where
  ordered : Ordered (hooks s')
  others : ∀ key, key ∉ events.map Prod.fst →
    (JsonOf.obj (hooks s')).get? key = (JsonOf.obj (hooks s)).get? key
  events : ∀ e ∈ events, ∃ entries, found s e.1 entries ∧ (∀ entry ∈ entries, entry.Sorted) ∧
    (JsonOf.obj (hooks s')).get? e.1 = some (.arr (preserveUnmanagedHooks entries ++ [e.2]))

/-- **The fold installs every event once.** -/
theorem foldlM_installs {events : List (String × Json)} (hnames : (events.map Prod.fst).Nodup)
    (hentries : ∀ e ∈ events, e.2.Sorted) {I : σ → Prop}
    (hstep : ∀ s e s', I s → Ordered (hooks s) → step s e = .ok s' →
      I s' ∧ Installs hooks found s e s') {s s' : σ}
    (hI : I s) (hordered : Ordered (hooks s)) (h : events.foldlM step s = .ok s') :
    I s' ∧ EventsInstalled hooks found s events s' := by
  induction events generalizing s with
  | nil =>
    obtain rfl := pure_eq_ok.mp h
    exact ⟨hI, hordered, fun _ _ => rfl, fun _ h => absurd h List.not_mem_nil⟩
  | cons e events ih =>
    rw [List.foldlM_cons, bind_eq_ok] at h
    obtain ⟨t, ht, h⟩ := h
    rw [List.map_cons, List.nodup_cons] at hnames
    obtain ⟨hIt, hinstalls⟩ := hstep s e t hI hordered ht
    obtain ⟨entries, hfound, hsorted, hhooks⟩ := hinstalls.event
    have harr : (JsonOf.arr (preserveUnmanagedHooks entries ++ [e.2])).Sorted := by
      refine .arr ?_
      intro v hv
      obtain hv | hv := List.mem_append.mp hv
      · exact preserve_sorted hsorted v hv
      · rw [List.mem_singleton.mp hv]
        exact hentries e List.mem_cons_self
    have horderedt : Ordered (hooks t) := hhooks ▸ hordered.insert harr
    obtain ⟨hIs, hrest⟩ := ih hnames.2 (fun e he => hentries e (List.mem_cons_of_mem _ he)) hIt
      horderedt h
    refine ⟨hIs, hrest.ordered, ?_, ?_⟩
    · intro key hkey
      rw [List.map_cons, List.mem_cons, not_or] at hkey
      rw [hrest.others key hkey.2, hhooks, JsonOf.get?_insertMember hordered.keys,
        if_neg (Ne.symm hkey.1)]
    · intro d hd
      obtain rfl | hd := List.mem_cons.mp hd
      · refine ⟨entries, hfound, hsorted, ?_⟩
        rw [hrest.others d.1 hnames.1, hhooks, JsonOf.get?_insertMember hordered.keys, if_pos rfl]
      · obtain ⟨es, hes, hsortedes, hget⟩ := hrest.events d hd
        have hne : d.1 ≠ e.1 := by
          intro heq
          exact hnames.1 (heq ▸ List.mem_map_of_mem hd)
        exact ⟨es, (hinstalls.others d.1 es hne).mp hes, hsortedes, hget⟩

/-- A fold whose steps change nothing. -/
theorem foldlM_fixed {events : List (String × Json)} {s : σ} (h : ∀ e ∈ events, step s e = .ok s) :
    events.foldlM step s = .ok s := by
  induction events with
  | nil => rfl
  | cons e events ih =>
    rw [List.foldlM_cons, h e List.mem_cons_self, ok_bind]
    exact ih fun d hd => h d (List.mem_cons_of_mem _ hd)

end

/-! ### One event -/

theorem EntriesAt.of_get?_eq {members members' : Members} {key : String} {entries : List Json}
    (h : (JsonOf.obj members').get? key = (JsonOf.obj members).get? key) :
    EntriesAt members' key entries ↔ EntriesAt members key entries := by
  rw [EntriesAt, EntriesAt, h]

theorem entriesAt_insert {members : Members} (h : Ordered members) {key l : String} {v : Json}
    (hne : key ≠ l) {entries : List Json} :
    EntriesAt (insertMember l v members) key entries ↔ EntriesAt members key entries := by
  apply EntriesAt.of_get?_eq
  rw [JsonOf.get?_insertMember h.keys, if_neg (Ne.symm hne)]

theorem get?_eraseMember {members : Members} {key l : String} :
    (JsonOf.obj (eraseMember l members)).get? key =
      if key = l then none else (JsonOf.obj members).get? key := JsonOf.get?_filter_ne

theorem entriesAt_erase {members : Members} {key l : String} (hne : key ≠ l)
    {entries : List Json} :
    EntriesAt (eraseMember l members) key entries ↔ EntriesAt members key entries := by
  apply EntriesAt.of_get?_eq
  rw [get?_eraseMember, if_neg hne]

theorem eraseMember_of_none {members : Members} {key : String}
    (h : (JsonOf.obj members).get? key = none) : eraseMember key members = members := by
  refine List.filter_eq_self.mpr ?_
  intro m hm
  rw [JsonOf.get?, List.findRev?_eq_find?_reverse, Option.map_eq_none_iff,
    List.find?_eq_none] at h
  simpa using h m (List.mem_reverse.mpr hm)

/-- What `setup` has installed it replaces by the same. -/
theorem preserve_again {entries : List Json} (h : ∀ e ∈ entries, e.Sorted) {managed : Json}
    (hmanaged : preserveEntry managed = none) :
    preserveUnmanagedHooks (preserveUnmanagedHooks entries ++ [managed]) =
      preserveUnmanagedHooks entries := by
  have hnone : preserveUnmanagedHooks [managed] = [] := List.filterMap_cons_none hmanaged
  rw [preserveUnmanagedHooks, List.filterMap_append]
  show preserveUnmanagedHooks (preserveUnmanagedHooks entries) ++ preserveUnmanagedHooks [managed] =
    _
  rw [preserve_preserve h, hnone, List.append_nil]

theorem entriesAt_of_get? {members : Members} {key : String} {entries : List Json}
    (h : (JsonOf.obj members).get? key = some (.arr entries)) : EntriesAt members key entries := by
  rw [EntriesAt, h]

/-! ### Both clients -/

inductive Client where
  | claude
  | codex

namespace Client

def read : Client → Bytes → Except HookExc Members
  | claude => readClaudeSettings
  | codex => readCodexHooks

def settings : Client → Option Members → Except HookExc Members
  | claude => claudeSettings
  | codex => codexHooks

def build : Client → Option Members → Except HookExc Bytes
  | claude => claudeSettingsBytes
  | codex => codexHooksBytes

def events : Client → List (String × Json)
  | claude => claudeEvents
  | codex => codexEvents

/-- The entries of an event at the top of the document, which only Codex knows. -/
def LegacyAt (c : Client) (old : Members) (event : String) (entries : List Json) : Prop :=
  match c with
  | claude => entries = []
  | codex => EntriesAt old event entries

/-- A member other than the hooks.  Codex has its entries under the hooks, and a description. -/
def member (c : Client) (old : Members) (key : String) : Option Json :=
  match c with
  | claude => (JsonOf.obj old).get? key
  | codex =>
    if key ∈ codexEvents.map Prod.fst then none
    else if key = "description" then
      some (((JsonOf.obj old).get? "description").getD codexDescription)
    else (JsonOf.obj old).get? key

end Client

/-- The hooks of a document; none without them. -/
def HooksAt (document hooks : Members) : Prop :=
  match (JsonOf.obj document).get? "hooks" with
  | none => hooks = []
  | some v => v = .obj hooks

/-- The new document: the members other than the hooks, the events that are not managed as they
were, and each managed event with what is kept of its entries and one managed entry at the end. -/
structure Installed (c : Client) (old new : Members) : Prop where
  members : ∀ key, key ≠ "hooks" → (JsonOf.obj new).get? key = c.member old key
  hooks : ∃ oldHooks newHooks, HooksAt old oldHooks ∧
    (JsonOf.obj new).get? "hooks" = some (.obj newHooks) ∧
    (∀ event, event ∉ c.events.map Prod.fst →
      (JsonOf.obj newHooks).get? event = (JsonOf.obj oldHooks).get? event) ∧
    ∀ e ∈ c.events, ∃ entries legacy kept, EntriesAt oldHooks e.1 entries ∧
      c.LegacyAt old e.1 legacy ∧ Kept (entries ++ legacy) kept ∧
      (JsonOf.obj newHooks).get? e.1 = some (.arr (kept ++ [e.2]))

theorem hooksOf_eq_ok {document hooks : Members} :
    hooksOf document = .ok hooks ↔ HooksAt document hooks := by
  rw [hooksOf, HooksAt]
  cases (JsonOf.obj document).get? "hooks" with
  | none => exact ⟨fun h => (Except.ok.inj h).symm, fun h => congrArg _ h.symm⟩
  | some v =>
    cases v with
    | obj ms =>
      exact ⟨fun h => congrArg _ (Except.ok.inj h), fun h => congrArg _ (JsonOf.obj.inj h)⟩
    | _ => exact ⟨fun h => (nomatch h), fun h => (nomatch h)⟩

theorem hooksAt_of_get? {document hooks : Members}
    (h : (JsonOf.obj document).get? "hooks" = some (.obj hooks)) : HooksAt document hooks := by
  rw [HooksAt, h]

theorem Ordered.hooks {document hooks : Members} (h : Ordered document)
    (hat : HooksAt document hooks) : Ordered hooks := by
  rw [HooksAt] at hat
  split at hat
  · rw [hat]
    exact .obj .nil fun _ hm => absurd hm List.not_mem_nil
  · next v hv =>
    subst hat
    exact h.get? hv

theorem foldlM_error {σ : Type} {step : σ → String × Json → Except HookExc σ}
    {events : List (String × Json)} {s : σ} {e : HookExc}
    (hstep : ∀ s ev e, step s ev = .error e → ∃ code message, e = .workspaceError code message)
    (h : events.foldlM step s = .error e) : ∃ code message, e = .workspaceError code message := by
  induction events generalizing s with
  | nil => exact nomatch h
  | cons ev events ih =>
    rw [List.foldlM_cons, bind_eq_error] at h
    obtain h | ⟨t, -, h⟩ := h
    · exact hstep s ev e h
    · exact ih h

/-! ### Claude -/

theorem claudeEvents_nodup : (claudeEvents.map Prod.fst).Nodup := by decide

theorem claudeEvents_managed : ∀ e ∈ claudeEvents, preserveEntry e.2 = none := by decide

theorem claudeEntry_sorted (command : String) : (claudeEntry command).Sorted := by
  have hhook : (JsonOf.obj [("command", .str command), ("type", .str "command")]).Sorted :=
    .obj (show ["command", "type"].Pairwise (· < ·) by decide)
      (List.forall_mem_cons.mpr ⟨.str _, List.forall_mem_singleton.mpr (.str _)⟩)
  exact .obj (show ["hooks", "matcher"].Pairwise (· < ·) by decide)
    (List.forall_mem_cons.mpr ⟨.arr (List.forall_mem_singleton.mpr hhook),
      List.forall_mem_singleton.mpr (.str _)⟩)

theorem claudeEvents_sorted : ∀ e ∈ claudeEvents, e.2.Sorted := by
  intro e he
  obtain ⟨command, hcommand⟩ : ∃ command, e.2 = claudeEntry command := by
    simp only [claudeEvents, List.mem_cons, List.not_mem_nil, or_false] at he
    obtain rfl | rfl | rfl | rfl | rfl := he
    all_goals exact ⟨_, rfl⟩
  rw [hcommand]
  exact claudeEntry_sorted command

theorem installClaudeEvent_ok {hooks hooks' : Members} {e : String × Json} (h : Ordered hooks)
    (hstep : installClaudeEvent hooks e = .ok hooks') :
    Installs id EntriesAt hooks e hooks' := by
  obtain ⟨entries, hentries, hstep⟩ := bind_eq_ok.mp hstep
  obtain rfl := pure_eq_ok.mp hstep
  have hat := entriesOf_eq_ok.mp hentries
  exact ⟨⟨entries, hat, h.entries hat, rfl⟩, fun key es hne => entriesAt_insert h hne⟩

theorem installClaudeEvent_error {hooks : Members} {ev : String × Json} {e : HookExc}
    (h : installClaudeEvent hooks ev = .error e) :
    ∃ code message, e = .workspaceError code message := by
  rw [installClaudeEvent, bind_eq_error] at h
  obtain h | ⟨entries, -, h⟩ := h
  · exact ⟨_, _, entriesOf_eq_error h⟩
  · exact nomatch h

/-- Hooks with every event installed are left as they are. -/
theorem installClaudeEvent_again {s : Members} {hooks : Members}
    (h : EventsInstalled id EntriesAt s claudeEvents hooks) :
    claudeEvents.foldlM installClaudeEvent hooks = .ok hooks := by
  apply foldlM_fixed
  intro e he
  obtain ⟨entries, -, hsorted, hget⟩ := h.events e he
  have hordered : Ordered hooks := h.ordered
  have hat : EntriesAt hooks e.1 (preserveUnmanagedHooks entries ++ [e.2]) :=
    entriesAt_of_get? hget
  rw [installClaudeEvent, entriesOf_eq_ok.mpr hat, ok_bind,
    preserve_again hsorted (claudeEvents_managed e he)]
  exact congrArg _ (JsonOf.insertMember_of_get? hordered.keys hget)

/-- The new settings of Claude. -/
theorem claudeSettings_ok {old new : Members} (hold : Ordered old)
    (h : claudeSettings (some old) = .ok new) :
    Ordered new ∧ Installed .claude old new ∧ claudeSettings (some new) = .ok new := by
  rw [claudeSettings, Option.getD_some] at h
  obtain ⟨oldHooks, hhooks, h⟩ := bind_eq_ok.mp h
  obtain ⟨newHooks, hfold, h⟩ := bind_eq_ok.mp h
  obtain rfl := pure_eq_ok.mp h
  have hat := hooksOf_eq_ok.mp hhooks
  have hordered : Ordered oldHooks := hold.hooks hat
  have hstep : ∀ s e s', True → Ordered s → installClaudeEvent s e = .ok s' →
      True ∧ Installs id EntriesAt s e s' := fun s e s' _ hs h => ⟨trivial, installClaudeEvent_ok hs h⟩
  obtain ⟨-, hinstalled⟩ := foldlM_installs claudeEvents_nodup claudeEvents_sorted
    hstep trivial hordered hfold
  have hnew : Ordered newHooks := hinstalled.ordered
  have hget : (JsonOf.obj (insertMember "hooks" (.obj newHooks) old)).get? "hooks" =
      some (.obj newHooks) := by
    rw [JsonOf.get?_insertMember hold.keys, if_pos rfl]
  have hnewDocument : Ordered (insertMember "hooks" (.obj newHooks) old) := hold.insert hnew
  refine ⟨hnewDocument, ⟨?_, oldHooks, newHooks, hat, hget, hinstalled.others, ?_⟩, ?_⟩
  · intro key hkey
    rw [JsonOf.get?_insertMember hold.keys, if_neg (Ne.symm hkey)]
    rfl
  · intro e he
    obtain ⟨entries, hentries, hsorted, hevent⟩ := hinstalled.events e he
    refine ⟨entries, [], preserveUnmanagedHooks entries, hentries, rfl, ?_, hevent⟩
    rw [List.append_nil]
    exact kept_preserve hsorted
  · rw [claudeSettings, Option.getD_some, hooksOf_eq_ok.mpr (hooksAt_of_get? hget), ok_bind,
      installClaudeEvent_again hinstalled, ok_bind]
    exact congrArg _ (JsonOf.insertMember_of_get? hnewDocument.keys hget)

/-! ### Codex -/

theorem codexEvents_nodup : (codexEvents.map Prod.fst).Nodup := by decide

theorem codexEvents_managed : ∀ e ∈ codexEvents, preserveEntry e.2 = none := by decide

theorem codexEvents_other :
    ∀ e ∈ codexEvents, e.1 ≠ "hooks" ∧ e.1 ≠ "description" := by decide

theorem codexEntry_sorted (command : String) (limit : Option Nat) :
    (codexEntry command limit).Sorted := by
  have hmembers : ∀ m ∈ ([("command", .str command), ("type", .str "command")] : Members),
      m.2.Sorted := List.forall_mem_cons.mpr ⟨.str _, List.forall_mem_singleton.mpr (.str _)⟩
  refine .obj (show ["hooks"].Pairwise (· < ·) by decide)
    (List.forall_mem_singleton.mpr (.arr (List.forall_mem_singleton.mpr ?_)))
  cases limit with
  | none => exact .obj (show ["command", "type"].Pairwise (· < ·) by decide) hmembers
  | some limit =>
    exact .obj (show ["additionalContextLimit", "command", "type"].Pairwise (· < ·) by decide)
      (List.forall_mem_cons.mpr ⟨.num _, hmembers⟩)

theorem codexEvents_sorted : ∀ e ∈ codexEvents, e.2.Sorted := by
  intro e he
  obtain ⟨command, limit, hcommand⟩ : ∃ command limit, e.2 = codexEntry command limit := by
    simp only [codexEvents, List.mem_cons, List.not_mem_nil, or_false] at he
    obtain rfl | rfl | rfl | rfl := he
    · exact ⟨_, some 12000, rfl⟩
    · exact ⟨_, some 12000, rfl⟩
    · exact ⟨_, none, rfl⟩
    · exact ⟨_, none, rfl⟩
  rw [hcommand]
  exact codexEntry_sorted command limit

/-- The entries of an event under the hooks, and then those at the top. -/
def CodexFound (s : Members × Members) (event : String) (entries : List Json) : Prop :=
  ∃ under top, EntriesAt s.2 event under ∧ EntriesAt s.1 event top ∧ entries = under ++ top

theorem installCodexEvent_ok {s s' : Members × Members} {e : String × Json} (h : Ordered s.1)
    (hhooks : Ordered s.2) (hstep : installCodexEvent s e = .ok s') :
    Ordered s'.1 ∧ Installs Prod.snd CodexFound s e s' := by
  obtain ⟨under, hunder, hstep⟩ := bind_eq_ok.mp hstep
  obtain ⟨top, htop, hstep⟩ := bind_eq_ok.mp hstep
  obtain rfl := pure_eq_ok.mp hstep
  have hatUnder := entriesOf_eq_ok.mp hunder
  have hatTop := entriesOf_eq_ok.mp htop
  refine ⟨h.erase e.1, ⟨under ++ top, ⟨under, top, hatUnder, hatTop, rfl⟩, ?_, rfl⟩, ?_⟩
  · intro entry hentry
    obtain hentry | hentry := List.mem_append.mp hentry
    · exact hhooks.entries hatUnder entry hentry
    · exact h.entries hatTop entry hentry
  · intro key entries hne
    simp only [CodexFound, entriesAt_insert hhooks hne, entriesAt_erase hne]

theorem installCodexEvent_document {s s' : Members × Members} {e : String × Json}
    (hstep : installCodexEvent s e = .ok s') : s'.1 = eraseMember e.1 s.1 := by
  obtain ⟨under, -, hstep⟩ := bind_eq_ok.mp hstep
  obtain ⟨top, -, hstep⟩ := bind_eq_ok.mp hstep
  exact (pure_eq_ok.mp hstep).symm ▸ rfl

theorem installCodexEvent_error {s : Members × Members} {ev : String × Json} {e : HookExc}
    (h : installCodexEvent s ev = .error e) : ∃ code message, e = .workspaceError code message := by
  rw [installCodexEvent, bind_eq_error] at h
  obtain h | ⟨under, -, h⟩ := h
  · exact ⟨_, _, entriesOf_eq_error h⟩
  · obtain h | ⟨top, -, h⟩ := bind_eq_error.mp h
    · exact ⟨_, _, entriesOf_eq_error h⟩
    · exact nomatch h

/-- The document without the entries at its top. -/
theorem installCodexEvents_document {events : List (String × Json)} {s s' : Members × Members}
    (h : events.foldlM installCodexEvent s = .ok s') (key : String) :
    (JsonOf.obj s'.1).get? key =
      if key ∈ events.map Prod.fst then none else (JsonOf.obj s.1).get? key := by
  induction events generalizing s with
  | nil =>
    obtain rfl := pure_eq_ok.mp h
    exact (if_neg List.not_mem_nil).symm
  | cons e events ih =>
    rw [List.foldlM_cons, bind_eq_ok] at h
    obtain ⟨t, ht, h⟩ := h
    rw [ih h, installCodexEvent_document ht, get?_eraseMember, List.map_cons]
    by_cases hkey : key = e.1
    · rw [if_pos hkey, if_pos (List.mem_cons.mpr (Or.inl hkey)), ite_self]
    · simp only [hkey, if_false, List.mem_cons, false_or]

/-- Hooks with every event installed are left as they are, and so is a document without entries at
its top. -/
theorem installCodexEvent_again {s s' : Members × Members} {document : Members}
    (h : EventsInstalled Prod.snd CodexFound s codexEvents s')
    (hnone : ∀ e ∈ codexEvents, (JsonOf.obj document).get? e.1 = none) :
    codexEvents.foldlM installCodexEvent (document, s'.2) = .ok (document, s'.2) := by
  apply foldlM_fixed
  intro e he
  obtain ⟨entries, -, hsorted, hget⟩ := h.events e he
  have hat : EntriesAt s'.2 e.1 (preserveUnmanagedHooks entries ++ [e.2]) := entriesAt_of_get? hget
  have htop : EntriesAt document e.1 [] := by
    rw [EntriesAt, hnone e he]
  rw [installCodexEvent, entriesOf_eq_ok.mpr hat, ok_bind, entriesOf_eq_ok.mpr htop, ok_bind,
    List.append_nil, preserve_again hsorted (codexEvents_managed e he),
    eraseMember_of_none (hnone e he), JsonOf.insertMember_of_get? h.ordered.keys hget]
  rfl

theorem Ordered.described {document : Members} (h : Ordered document) :
    Ordered (described document) := by
  rw [Setup.described]
  split
  · exact h
  · exact h.insert (.str _)

theorem get?_described {document : Members} (h : Ordered document) (key : String) :
    (JsonOf.obj (described document)).get? key =
      if key = "description" then
        some (((JsonOf.obj document).get? "description").getD codexDescription)
      else (JsonOf.obj document).get? key := by
  rw [described]
  cases hget : (JsonOf.obj document).get? "description" with
  | none =>
    rw [Option.isSome_none, if_neg Bool.false_ne_true, JsonOf.get?_insertMember h.keys,
      Option.getD_none]
    simp only [eq_comm]
  | some v =>
    rw [Option.isSome_some, if_pos rfl, Option.getD_some]
    by_cases hkey : key = "description"
    · rw [if_pos hkey, hkey, hget]
    · rw [if_neg hkey]

/-- The new hooks of Codex. -/
theorem codexHooks_ok {old new : Members} (hold : Ordered old)
    (h : codexHooks (some old) = .ok new) :
    Ordered new ∧ Installed .codex old new ∧ codexHooks (some new) = .ok new := by
  rw [codexHooks, Option.getD_some] at h
  obtain ⟨oldHooks, hhooks, h⟩ := bind_eq_ok.mp h
  obtain ⟨s, hfold, h⟩ := bind_eq_ok.mp h
  obtain rfl := pure_eq_ok.mp h
  have hat : HooksAt old oldHooks := by
    have hat := hooksOf_eq_ok.mp hhooks
    rw [HooksAt, get?_described hold, if_neg (by decide)] at hat
    exact hat
  have hordered : Ordered oldHooks := hold.hooks hat
  obtain ⟨hdocument, hinstalled⟩ := foldlM_installs (I := fun s => Ordered s.1) codexEvents_nodup
    codexEvents_sorted (fun s e s' => installCodexEvent_ok) hold.described hordered hfold
  have htop := installCodexEvents_document hfold
  have hnew : Ordered s.2 := hinstalled.ordered
  have hget : ∀ key, (JsonOf.obj (insertMember "hooks" (.obj s.2) s.1)).get? key =
      if "hooks" = key then some (.obj s.2) else (JsonOf.obj s.1).get? key :=
    fun key => JsonOf.get?_insertMember hdocument.keys
  have hnewDocument : Ordered (insertMember "hooks" (.obj s.2) s.1) := hdocument.insert hnew
  have hnone : ∀ e ∈ codexEvents,
      (JsonOf.obj (insertMember "hooks" (.obj s.2) s.1)).get? e.1 = none := by
    intro e he
    rw [hget, if_neg (Ne.symm (codexEvents_other e he).1), htop, if_pos (List.mem_map_of_mem he)]
  have hmember : ∀ key, key ≠ "hooks" →
      (JsonOf.obj (insertMember "hooks" (.obj s.2) s.1)).get? key =
        Client.codex.member old key := by
    intro key hkey
    rw [hget, if_neg (Ne.symm hkey), htop]
    show _ = if _ then _ else _
    rw [get?_described hold]
  have hdescribed : described (insertMember "hooks" (.obj s.2) s.1) =
      insertMember "hooks" (.obj s.2) s.1 := by
    rw [described, hmember "description" (by decide)]
    rfl
  refine ⟨hnewDocument, ⟨hmember, oldHooks, s.2, hat, hget "hooks", hinstalled.others, ?_⟩, ?_⟩
  · intro e he
    obtain ⟨entries, ⟨under, top, hunder, hatTop, rfl⟩, hsorted, hevent⟩ := hinstalled.events e he
    refine ⟨under, top, preserveUnmanagedHooks (under ++ top), hunder, ?_, kept_preserve hsorted,
      hevent⟩
    show EntriesAt old e.1 top
    rw [EntriesAt, get?_described hold, if_neg (codexEvents_other e he).2] at hatTop
    exact hatTop
  · rw [codexHooks, Option.getD_some, hdescribed, hooksOf_eq_ok.mpr (hooksAt_of_get? (hget "hooks")),
      ok_bind, installCodexEvent_again hinstalled hnone, ok_bind]
    exact congrArg _ (JsonOf.insertMember_of_get? hnewDocument.keys (hget "hooks"))

/-! ### Files -/

theorem readHooksDocument_ok {code unreadable notObject notHooks : String} {content : Bytes}
    {members : Members}
    (h : readHooksDocument code unreadable notObject notHooks content = .ok members) :
    Ordered members ∧ ((JsonOf.obj members).get? "hooks" ≠ some .null →
      ∃ hooks, HooksAt members hooks) := by
  obtain ⟨document, hdocument, h⟩ := bind_eq_ok.mp h
  obtain ⟨text, -, hloads⟩ := Option.bind_eq_some_iff.mp (orRaise_eq_ok.mp hdocument)
  have hsorted := sorted_of_loads hloads
  cases document with
  | obj ms =>
    simp only at h
    split at h
    · next hget =>
      obtain rfl := pure_eq_ok.mp h
      refine ⟨hsorted, fun _ => ⟨[], ?_⟩⟩
      rw [HooksAt, hget]
    · next hget =>
      obtain rfl := pure_eq_ok.mp h
      exact ⟨hsorted, fun hne => absurd hget hne⟩
    · next hooks hget =>
      obtain rfl := pure_eq_ok.mp h
      exact ⟨hsorted, fun _ => ⟨hooks, hooksAt_of_get? hget⟩⟩
    · exact nomatch h
  | _ => exact nomatch h

theorem readHooksDocument_line {code unreadable notObject notHooks : String} {members hooks : Members}
    (h : Ordered members) (hhooks : (JsonOf.obj members).get? "hooks" = some (.obj hooks)) :
    readHooksDocument code unreadable notObject notHooks (jsonLine (.obj members)) = .ok members := by
  have hdecode : (utf8Decode? (jsonLine (.obj members))).bind loads = some (.obj members) := by
    rw [decode_jsonLine, Option.bind_some, loads_line h]
  simp only [readHooksDocument, hdecode, orRaise, ok_bind, hhooks]
  rfl

theorem settings_ok {c : Client} {old new : Members} (hold : Ordered old)
    (h : c.settings (some old) = .ok new) :
    Ordered new ∧ Installed c old new ∧ c.settings (some new) = .ok new := by
  cases c with
  | claude => exact claudeSettings_ok hold h
  | codex => exact codexHooks_ok hold h

theorem settings_error {c : Client} {old hooks : Members} (hold : Ordered old)
    (hhooks : HooksAt old hooks) {e : HookExc} (h : c.settings (some old) = .error e) :
    ∃ code message, e = .workspaceError code message := by
  cases c with
  | claude =>
    rw [Client.settings, claudeSettings, Option.getD_some, hooksOf_eq_ok.mpr hhooks, ok_bind] at h
    obtain h | ⟨newHooks, -, h⟩ := bind_eq_error.mp h
    · exact foldlM_error (fun _ _ _ => installClaudeEvent_error) h
    · exact nomatch h
  | codex =>
    have hdescribed : HooksAt (described old) hooks := by
      rw [HooksAt, get?_described hold, if_neg (by decide)]
      exact hhooks
    rw [Client.settings, codexHooks, Option.getD_some, hooksOf_eq_ok.mpr hdescribed, ok_bind] at h
    obtain h | ⟨s, -, h⟩ := bind_eq_error.mp h
    · exact foldlM_error (fun _ _ _ => installCodexEvent_error) h
    · exact nomatch h

theorem build_eq (c : Client) (existing : Option Members) :
    c.build existing = (fun new => jsonLine (.obj new)) <$> c.settings existing := by
  cases c with
  | claude => exact (map_eq_pure_bind _ _).symm
  | codex => exact (map_eq_pure_bind _ _).symm

theorem read_ok {c : Client} {content : Bytes} {members : Members}
    (h : c.read content = .ok members) :
    Ordered members ∧ ((JsonOf.obj members).get? "hooks" ≠ some .null →
      ∃ hooks, HooksAt members hooks) := by
  cases c with
  | claude => exact readHooksDocument_ok h
  | codex => exact readHooksDocument_ok h

theorem read_line {c : Client} {members hooks : Members} (h : Ordered members)
    (hhooks : (JsonOf.obj members).get? "hooks" = some (.obj hooks)) :
    c.read (jsonLine (.obj members)) = .ok members := by
  cases c with
  | claude => exact readHooksDocument_line h hhooks
  | codex => exact readHooksDocument_line h hhooks

/-- A hook of the user beside a managed one. -/
def sharedEntry : Json :=
  .obj [
    ("hooks", .arr [.obj [("command", .str "say done")],
      .obj [("command", .str "shared-mind-session-hook claude stop")]]),
    ("matcher", .str "")]

def sharedSettings : Members := [("hooks", .obj [("Stop", .arr [sharedEntry])]), ("model", .null)]

theorem sharedSettings_ordered : Ordered sharedSettings := by
  have hcommand (command : String) : (JsonOf.obj [("command", .str command)]).Sorted :=
    .obj (show ["command"].Pairwise (· < ·) by decide) (List.forall_mem_singleton.mpr (.str _))
  have hentry : sharedEntry.Sorted :=
    .obj (show ["hooks", "matcher"].Pairwise (· < ·) by decide)
      (List.forall_mem_cons.mpr ⟨.arr (List.forall_mem_cons.mpr ⟨hcommand _,
        List.forall_mem_singleton.mpr (hcommand _)⟩), List.forall_mem_singleton.mpr (.str _)⟩)
  have hhooks : Ordered [("Stop", .arr [sharedEntry])] :=
    .obj (show ["Stop"].Pairwise (· < ·) by decide)
      (List.forall_mem_singleton.mpr (.arr (List.forall_mem_singleton.mpr hentry)))
  exact .obj (show ["hooks", "model"].Pairwise (· < ·) by decide)
    (List.forall_mem_cons.mpr ⟨hhooks, List.forall_mem_singleton.mpr .null⟩)

end SharedMind.Setup
