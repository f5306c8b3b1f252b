import SharedMind.Py.Lines
import SharedMind.Py.RawJson
import SharedMind.Py.Store

/-!
# Installing hooks

`setup` writes its hooks into the settings of Claude and the hooks file of Codex, which belong to
the user.

* `readClaudeSettings`, `readCodexHooks`: what is taken for a settings document.  A text that spells
  a lone surrogate has no value here.
* `preserveUnmanagedHooks`: the entries of an event without the hooks `setup` manages.
* `claudeSettingsBytes`, `codexHooksBytes`: the new file.
-/

namespace SharedMind.Setup

open Py

inductive HookExc where
  | workspaceError (code message : String)
  | typeError
  deriving DecidableEq

abbrev Members := List (String × Json)

/-! ### Reading -/

/-- A document with its `hooks`, if it has some. -/
def readHooksDocument (code unreadable notObject notHooks : String) (content : Bytes) :
    Except HookExc Members := do
  let document ← orRaise ((utf8Decode? content).bind loads) (.workspaceError code unreadable)
  match document with
  | .obj members =>
    match document.get? "hooks" with
    | none => return members
    | some .null => return members
    | some (.obj _) => return members
    | some _ => .error (.workspaceError code notHooks)
  | _ => .error (.workspaceError code notObject)

def claudeCode : String := "CLAUDE_HOOKS_SETTINGS_INVALID"

def codexCode : String := "CODEX_HOOKS_SETTINGS_INVALID"

/-- `_read_claude_settings` of a regular file. -/
def readClaudeSettings : Bytes → Except HookExc Members :=
  readHooksDocument claudeCode "Cannot read Claude settings"
    "Claude settings must be a JSON object." "Claude settings hooks must be a JSON object."

/-- `_read_codex_hooks` of a regular file. -/
def readCodexHooks : Bytes → Except HookExc Members :=
  readHooksDocument codexCode "Cannot read Codex hooks" "Codex hooks must be a JSON object."
    "Codex hooks field must be a JSON object."

/-! ### Managed hooks -/

/-- `_managed_hook_command`. -/
def managedHookCommand (hook : Json) : Bool :=
  match hook with
  | .obj _ =>
    match hook.get? "command" with
    | some (.str command) =>
      "shared-mind-session-hook ".toList.isPrefixOf command.toList ||
        decide ("shared_mind.adapters.session_hooks".toList <:+: command.toList) ||
        decide ("shared_mind.adapters.claude_code_hooks".toList <:+: command.toList)
    | _ => false
  | _ => false

/-- An entry without its managed hooks, unless it has no others. -/
def preserveEntry (entry : Json) : Option Json :=
  match entry with
  | .obj members =>
    match entry.get? "hooks" with
    | some (.arr hooks) =>
      let unmanaged := hooks.filter fun hook => !managedHookCommand hook
      if unmanaged.length = hooks.length then some entry
      else if unmanaged ≠ [] then some (.obj (insertMember "hooks" (.arr unmanaged) members))
      else none
    | _ => some entry
  | _ => some entry

/-- `_preserve_unmanaged_hooks`. -/
def preserveUnmanagedHooks (entries : List Json) : List Json := entries.filterMap preserveEntry

/-! ### Writing -/

/-- `dict(document.get("hooks", {}))`. -/
def hooksOf (document : Members) : Except HookExc Members :=
  match (JsonOf.obj document).get? "hooks" with
  | none => .ok []
  | some (.obj hooks) => .ok hooks
  | some _ => .error .typeError

/-- The array under a key, or none at all; anything else is refused. -/
def entriesOf (members : Members) (key : String) (e : HookExc) : Except HookExc (List Json) :=
  match (JsonOf.obj members).get? key with
  | none => .ok []
  | some (.arr entries) => .ok entries
  | some _ => .error e

/-- The entry of a command for Claude. -/
def claudeEntry (command : String) : Json :=
  .obj [
    ("hooks", .arr [.obj [("command", .str command), ("type", .str "command")]]),
    ("matcher", .str "")]

def claudeEvents : List (String × Json) := [
  ("SessionStart", claudeEntry "shared-mind-session-hook claude start"),
  ("UserPromptSubmit", claudeEntry "shared-mind-session-hook claude prompt"),
  ("PostToolUse", claudeEntry "shared-mind-session-hook claude append"),
  ("SessionEnd", claudeEntry "shared-mind-session-hook claude finalize"),
  ("Stop", claudeEntry "shared-mind-session-hook claude finalize")]

def installClaudeEvent (hooks : Members) (e : String × Json) : Except HookExc Members := do
  let entries ← entriesOf hooks e.1
    (.workspaceError claudeCode ("Claude hook " ++ e.1 ++ " must be an array."))
  return insertMember e.1 (.arr (preserveUnmanagedHooks entries ++ [e.2])) hooks

/-- The new settings of Claude. -/
def claudeSettings (existing : Option Members) : Except HookExc Members := do
  let document := existing.getD []
  let hooks ← hooksOf document
  let hooks ← claudeEvents.foldlM installClaudeEvent hooks
  return insertMember "hooks" (.obj hooks) document

/-- `_claude_settings_bytes`. -/
def claudeSettingsBytes (existing : Option Members) : Except HookExc Bytes := do
  return jsonLine (.obj (← claudeSettings existing))

/-- The entry of a command for Codex, with the limit of what it may add to the context. -/
def codexEntry (command : String) (limit : Option Nat) : Json :=
  let command : Members := [("command", .str command), ("type", .str "command")]
  .obj [("hooks", .arr [.obj (match limit with
    | some limit => ("additionalContextLimit", .num (.int limit)) :: command
    | none => command)])]

def codexEvents : List (String × Json) := [
  ("SessionStart", codexEntry "shared-mind-session-hook codex start" (some 12000)),
  ("UserPromptSubmit", codexEntry "shared-mind-session-hook codex prompt" (some 12000)),
  ("PostToolUse", codexEntry "shared-mind-session-hook codex append" none),
  ("SessionEnd", codexEntry "shared-mind-session-hook codex finalize" none)]

/-- `document.pop(key, None)`. -/
def eraseMember (key : String) (members : Members) : Members :=
  members.filter fun m => m.1 ≠ key

/-- An event with its entries at the top of the document, where they once stood. -/
def installCodexEvent (s : Members × Members) (e : String × Json) :
    Except HookExc (Members × Members) := do
  let refused := HookExc.workspaceError codexCode ("Codex hook " ++ e.1 ++ " must be an array.")
  let entries ← entriesOf s.2 e.1 refused
  let legacyEntries ← entriesOf s.1 e.1 refused
  return (eraseMember e.1 s.1,
    insertMember e.1 (.arr (preserveUnmanagedHooks (entries ++ legacyEntries) ++ [e.2])) s.2)

def codexDescription : Json :=
  .str "Shared Mind project-scoped session restore and observation capture."

/-- `document.setdefault("description", …)`. -/
def described (document : Members) : Members :=
  if ((JsonOf.obj document).get? "description").isSome then document
  else insertMember "description" codexDescription document

/-- The new hooks of Codex. -/
def codexHooks (existing : Option Members) : Except HookExc Members := do
  let document := described (existing.getD [])
  let hooks ← hooksOf document
  let s ← codexEvents.foldlM installCodexEvent (document, hooks)
  return insertMember "hooks" (.obj s.2) s.1

/-- `_codex_hooks_bytes`. -/
def codexHooksBytes (existing : Option Members) : Except HookExc Bytes := do
  return jsonLine (.obj (← codexHooks existing))

end SharedMind.Setup
