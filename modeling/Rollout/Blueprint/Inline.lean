import Rollout.Blueprint.Basic
import Rollout.Text.Basic

/-!
# The inline blueprint

A stack may carry its own template. Each placeholder in it, the name of a variable between double
braces, stands for the value of the variable; values are not searched for placeholders again.

* `substitute`: the text with its placeholders replaced, or the fault of the first bad one.
* `Blueprint.inline`: the blueprint, and `BlueprintRegistry.standard`, which holds it.
-/

namespace Rollout

namespace Inline

/-- What opens a placeholder. -/
def opener : List Char := ['{', '{']

/-- What closes a placeholder. -/
def closer : List Char := ['}', '}']

/-- Why a template cannot be rendered. -/
inductive Fault where
  /-- The stack has no template. -/
  | missingTemplate
  /-- A placeholder is never closed. -/
  | unterminated
  /-- No variable has the name in a placeholder. -/
  | unknown (key : String)
  deriving DecidableEq, Repr

/-- What a fault is called. -/
def Fault.message : Fault → String
  | missingTemplate => "template_body is required"
  | unterminated => "unterminated '\x7b\x7b' placeholder"
  | unknown key => "unknown variable '" ++ key ++ "'"

/-- A template with each placeholder replaced by the value of its variable, from left to right. -/
def substitute (vars : Table String) (template : List Char) : Except Fault (List Char) :=
  match _hopen : Text.cut? opener template with
  | none => .ok template
  | some (before, rest) =>
    match _hclose : Text.cut? closer rest with
    | none => .error .unterminated
    | some (inner, after) =>
      let key := String.ofList (Text.trim inner)
      match vars.get? key with
      | none => .error (.unknown key)
      | some value => do
        let tail ← substitute vars after
        pure (before ++ value.toList ++ tail)
termination_by template.length
decreasing_by
  exact Nat.lt_trans (Text.length_after_lt (by decide) _hclose)
    (Text.length_after_lt (by decide) _hopen)

/-- The template of a stack with its variables put in. -/
def body (input : Blueprint.Input) : Except Fault String :=
  match input.templateBody with
  | none => .error .missingTemplate
  | some template => (substitute input.vars template.toList).map String.ofList

/-- The name under which the blueprint is known. -/
def name : String := "inline"

end Inline

/-- Renders the template that a stack carries. -/
def Blueprint.inline : Blueprint where
  render input :=
    match Inline.body input with
    | .ok text => .ok (.ofBody text)
    | .error fault => .error (.blueprint Inline.name (input.stackName ++ ": " ++ fault.message))

/-- The registry that holds the inline blueprint. -/
def BlueprintRegistry.standard : BlueprintRegistry :=
  ⟨Table.empty.insert Inline.name .inline⟩

end Rollout
