import Highlighter.Compiled.Error
import Highlighter.Pattern.Source
import Highlighter.Regex

/-!
# Rules and their alternation

Inside a mode several rules compete: the beginnings of other modes, its own end,
and what is illegal in it.  They are joined into one expression in which every
rule is a group, so that one search does, and the group that took part tells the rule.
-/
namespace Highlighter

/-- What happens when a rule matches: a mode begins, the mode ends, or the text
is illegal. -/
inductive RuleKind where
  | enter (mode : Nat)
  | leave
  | illegal
  deriving DecidableEq, Repr, Inhabited

def RuleKind.isEnter : RuleKind → Bool
  | .enter _ => true
  | _ => false

structure Rule where
  source : String
  kind : RuleKind
  deriving DecidableEq, Repr, Inhabited

/-- A match of a rule: the position of the rule in its alternation, the text
matched, and the groups inside the rule. -/
structure RuleMatch where
  kind : RuleKind
  position : Nat
  span : Span
  groups : List (Option Span)
  deriving DecidableEq, Repr, Inhabited

namespace RuleMatch

def lexeme (found : RuleMatch) : String :=
  String.ofList found.span.content

def group? (found : RuleMatch) : (number : Nat) → Option Span
  | 0 => some found.span
  | number + 1 => (found.groups[number]?).join

def groupText? (found : RuleMatch) (number : Nat) : Option String :=
  (found.group? number).map fun span => String.ofList span.content

end RuleMatch

/-- An alternative of an alternation: its kind, the number of its group and the
number of groups inside it. -/
structure Alternative where
  kind : RuleKind
  wrapper : Nat
  width : Nat
  deriving DecidableEq, Repr, Inhabited

/-- Rules joined into one expression.  No rules match nothing. -/
structure Alternation where
  regex : Option Regex
  alternatives : List Alternative
  deriving Repr, Inhabited

namespace Alternation

def number : (wrapper : Nat) → List Rule → List Alternative
  | _, [] => []
  | wrapper, rule :: rules =>
      let width := Pattern.countGroups rule.source
      { kind := rule.kind, wrapper, width } :: number (wrapper + 1 + width) rules

def groupCount : List Alternative → Nat
  | [] => 0
  | alternative :: alternatives => alternative.width + 1 + groupCount alternatives

/-- Joins rules.  The expression has to have as many groups as the rules seem to
have. -/
def compile (rules : List Rule) (ignoreCase : Bool) : Except CompileError Alternation :=
  match rules with
  | [] => .ok { regex := none, alternatives := [] }
  | rules =>
      let alternatives := number 1 rules
      let source := Pattern.joinCapturing "|" (rules.map Rule.source)
      match Regex.compile source ignoreCase with
      | .error cause => .error (.invalidPattern source cause)
      | .ok regex =>
          let expected := groupCount alternatives
          if regex.groups = expected then
            .ok { regex := some regex, alternatives }
          else
            .error (.groupMismatch source expected regex.groups)

def firstGroup? : (number : Nat) → List (Option Span) → Option (Nat × Span)
  | _, [] => none
  | number, some span :: _ => some (number, span)
  | number, none :: groups => firstGroup? (number + 1) groups

def alternative? (wrapper : Nat) :
    (position : Nat) → List Alternative → Option (Nat × Alternative)
  | _, [] => none
  | position, alternative :: alternatives =>
      if alternative.wrapper = wrapper then some (position, alternative)
      else alternative? wrapper (position + 1) alternatives

def ruleMatch? (alternation : Alternation) (found : Regex.Match) : Option RuleMatch := do
  let (wrapper, span) ← firstGroup? 1 found.groups
  let (position, alternative) ← alternative? wrapper 0 alternation.alternatives
  return {
    kind := alternative.kind
    position
    span
    groups := (found.groups.drop wrapper).take alternative.width }

/-- The first match from a place on.  Of rules that match there the first counts. -/
def search (alternation : Alternation) (place : Place) :
    Except Regex.SearchError (Option RuleMatch) :=
  match alternation.regex with
  | none => .ok none
  | some regex => do
      let found ← regex.search place
      return found.bind alternation.ruleMatch?

end Alternation
end Highlighter
