import Highlighter.Proofs.Containment

/-!
# Grammars that take text

Where a mode begins, most grammars take a piece of the text.  That is a matter of what their
rules match, in any text.  For many grammars the form of the rules is enough to tell.
-/
namespace Highlighter

variable {found : RuleMatch} {place : Place}

/-! ## Expressions that take text -/

namespace Regex

variable {nodes : List Node}

namespace Node

mutual

/-- Whether a node matches no empty text, by its form. -/
def takesText : Node → Bool
  | .consume _ => true
  | .literal _ => true
  | .concat nodes => anyTakesText nodes
  | .alternation nodes => eachTakesText nodes
  | .group _ node => takesText node
  | .atomic node => takesText node
  | _ => false

def anyTakesText : List Node → Bool
  | [] => false
  | node :: nodes => takesText node || anyTakesText nodes

/-- Whether none of some nodes matches an empty text. -/
def eachTakesText : List Node → Bool
  | [] => true
  | node :: nodes => takesText node && eachTakesText nodes

end

theorem anyTakesText_append (first second : List Node) :
    anyTakesText (first ++ second) = (anyTakesText first || anyTakesText second) := by
  induction first with
  | nil => rfl
  | cons node nodes ih =>
    simp only [List.cons_append, anyTakesText, ih, Bool.or_assoc]

theorem anyTakesText_singleton (node : Node) : anyTakesText [node] = takesText node :=
  Bool.or_false _

theorem takesText_of_mem {node : Node} (member : node ∈ nodes) (each : eachTakesText nodes = true) :
    takesText node = true := by
  induction nodes with
  | nil => cases member
  | cons first nodes ih =>
    rw [eachTakesText, Bool.and_eq_true] at each
    rcases List.mem_cons.mp member with rfl | member
    · exact each.1
    · exact ih member each.2

end Node

theorem Matches.takesText {start stop : Place} {effect : Effect}
    (matched : Matches nodes start stop effect) (takes : Node.anyTakesText nodes = true) :
    start.offset < stop.offset := by
  induction matched with
  | append isBefore isBehind before behind =>
    rw [Node.anyTakesText_append, Bool.or_eq_true] at takes
    rcases takes with takes | takes
    · exact Nat.lt_of_lt_of_le (before takes) isBehind.precedes.offset_le
    · exact Nat.lt_of_le_of_lt isBefore.precedes.offset_le (behind takes)
  | forget _ inner => exact inner takes
  | consume step _ => exact Place.offset_lt_of_next step
  | literal step _ => exact Place.offset_lt_of_next step
  | concat _ inner =>
    rw [Node.anyTakesText_singleton] at takes
    exact inner takes
  | alternation member _ inner =>
    rw [Node.anyTakesText_singleton] at takes
    exact inner (by rw [Node.anyTakesText_singleton]; exact Node.takesText_of_mem member takes)
  | group _ inner =>
    rw [Node.anyTakesText_singleton] at takes inner
    exact inner takes
  | atomic _ inner =>
    rw [Node.anyTakesText_singleton] at takes inner
    exact inner takes
  | _ => cases takes

end Regex

/-- Whether rules that let a mode begin match no empty text when they are joined, by their
form. -/
def Alternation.entersTakeText (rules : List Rule) (ignoreCase : Bool) : Bool :=
  let source := Pattern.joinCapturing "|" (rules.map Rule.source)
  match Regex.Expression.read (Regex.pattern source ignoreCase).toList with
  | .error _ => true
  | .ok expression =>
    (number 1 rules).all fun alternative =>
      !alternative.kind.isEnter ||
        (expression.node.contents alternative.wrapper).all Regex.Node.takesText

theorem Alternation.search_takesText {rules : List Rule} {ignoreCase : Bool}
    {alternation : Alternation} (compiled : compile rules ignoreCase = .ok alternation)
    (takes : entersTakeText rules ignoreCase = true)
    (search : alternation.search place = .ok (some found)) {text : List Char}
    (inText : (Place.start text).Precedes place) (isEnter : found.kind.isEnter = true) :
    found.span.isEmpty = false := by
  obtain ⟨-, expression, alternative, listed, inner, isContent, inside, read, sameKind, matched⟩ :=
    search_inText compiled search inText
  simp only [entersTakeText, read, List.all_eq_true, Bool.or_eq_true, Bool.not_eq_true'] at takes
  rcases takes alternative listed with noEnter | takes
  · rw [sameKind, noEnter] at isEnter
    cases isEnter
  · have taken := matched.takesText (by
      rw [Regex.Node.anyTakesText_singleton]
      exact takes inner isContent)
    simpa [Span.isEmpty] using Nat.ne_of_lt taken

/-! ## Grammars -/

namespace Compiled.CompiledGrammar

structure Comes (grammar : CompiledGrammar) (number position : Nat) (place : Place)
    (found : RuleMatch) : Prop where
  inText : ∃ text, (Place.start text).Precedes place
  search : (grammar.mode number).matcher.searchSuffix position place = .ok (some found)

/-- Where a mode begins, a run gets on in the text: no mode embeds other text or returns its
beginning, and every beginning takes text from where it is searched for on. -/
structure Consuming (grammar : CompiledGrammar) : Prop where
  embedsNothing : ∀ number, (grammar.mode number).subLanguage = none
  returnsNothing : ∀ number, (grammar.mode number).flags.returnBegin = false
  beginnings : ∀ number position place found, grammar.Comes number position place found →
    found.kind.isEnter = true →
      place.offset ≤ found.span.start.offset ∧ found.span.isEmpty = false

/-- Whether the rules of a mode show that it takes text wherever a mode begins. -/
def takesText (grammar : CompiledGrammar) (mode : CompiledMode) : Bool :=
  (List.range mode.matcher.rules.length).all fun position =>
    let rules := mode.matcher.rules.drop position
    Alternation.areFaithful (fun _ => none) rules grammar.caseInsensitive &&
      Alternation.entersTakeText rules grammar.caseInsensitive

/-- Whether a grammar shows that it takes text wherever a mode begins. -/
def isConsuming (grammar : CompiledGrammar) : Bool :=
  grammar.modes.all fun mode =>
    mode.subLanguage.isNone && !mode.flags.returnBegin && grammar.takesText mode

variable {definition : Grammar.Definition} {grammar : CompiledGrammar}

theorem Comes.takesText (compiled : compile definition = .ok grammar)
    (isConsuming : grammar.isConsuming = true) {number position : Nat}
    (comes : grammar.Comes number position place found) (isEnter : found.kind.isEnter = true) :
    place.offset ≤ found.span.start.offset ∧ found.span.isEmpty = false := by
  rcases matcher_of_compile compiled number with isInert | ⟨member, joined⟩
  · have search := comes.search
    rw [isInert] at search
    cases search
  · have takes := Array.all_eq_true_iff_forall_mem.mp isConsuming _ member
    simp only [Bool.and_eq_true, CompiledGrammar.takesText, List.all_eq_true, List.mem_range]
      at takes
    obtain ⟨alternation, isJoined, searched⟩ := Matcher.searchSuffix_ok joined comes.search
    obtain ⟨text, inText⟩ := comes.inText
    obtain ⟨rule, listed, -⟩ := Alternation.search_rule isJoined searched
    rw [List.getElem?_drop] at listed
    have inRules := (List.getElem?_eq_some_iff.mp listed).1
    obtain ⟨faithful, takesText⟩ := takes.2 position (by omega)
    exact ⟨(Alternation.search_placed faithful isJoined searched).1.offset_le,
      Alternation.search_takesText isJoined takesText searched inText isEnter⟩

theorem consuming_of_isConsuming (compiled : compile definition = .ok grammar)
    (isConsuming : grammar.isConsuming = true) : grammar.Consuming := by
  have each (number : Nat) : (grammar.mode number).subLanguage = none ∧
      (grammar.mode number).flags.returnBegin = false := by
    rcases matcher_of_compile compiled number with isInert | ⟨member, -⟩
    · rw [isInert]
      exact ⟨rfl, rfl⟩
    · have takes := Array.all_eq_true_iff_forall_mem.mp isConsuming _ member
      simp only [Bool.and_eq_true, Option.isNone_iff_eq_none, Bool.not_eq_true'] at takes
      exact takes.1
  exact ⟨fun number => (each number).1, fun number => (each number).2,
    fun _ _ _ _ comes => comes.takesText compiled isConsuming⟩

end Compiled.CompiledGrammar
end Highlighter
