import Highlighter.Proofs.Faithful

/-!
# Matches stay in the text

Whatever an expression looks like, also where its groups stand in look-behinds, the places that
a match notes are places of the text that is searched, and a group ends behind its beginning.
-/
namespace Highlighter

variable {text : List Char} {place : Place} {ignoreCase : Bool} {rules : List Rule}
  {found : RuleMatch}

namespace Place

variable {earlier first last : Place}

theorem precedes_previous {char : Char} (inText : (start text).Precedes place)
    (step : place.previous? = some (char, earlier)) :
    (start text).Precedes earlier := by
  obtain ⟨chars, rest, isText, rfl⟩ := inText
  rcases List.eq_nil_or_concat chars with rfl | ⟨passed, last, rfl⟩
  · cases step
  · simp only [previous?, advance, List.concat_eq_append, List.reverse_append,
      List.reverse_singleton, List.cons_append, List.nil_append, Option.some.injEq,
      Prod.mk.injEq] at step
    obtain ⟨rfl, rfl⟩ := step
    refine ⟨passed, last :: rest, by simp [isText], ?_⟩
    simp only [advance, bytes_append, bytes, Place.mk.injEq, true_and]
    omega

theorem precedes_back {count : Nat} (inText : (start text).Precedes place)
    (goesBack : place.back? count = some earlier) :
    (start text).Precedes earlier := by
  induction count generalizing place with
  | zero =>
    cases goesBack
    exact inText
  | succ count ih =>
    obtain ⟨⟨char, previous⟩, step, goesBack⟩ := Option.bind_eq_some_iff.mp goesBack
    exact ih (precedes_previous inText step) goesBack

theorem Precedes.offset_le_bytes (inText : (start text).Precedes place) :
    place.offset ≤ bytes text := by
  obtain ⟨chars, rest, isText, rfl⟩ := inText
  change text = chars ++ rest at isText
  simp only [isText, bytes_append, advance, start]
  omega

/-- What follows a later place is shorter. -/
theorem Precedes.length_le (order : first.Precedes last) :
    last.after.length ≤ first.after.length := by
  obtain ⟨chars, rest, isAfter, rfl⟩ := order
  simp [advance, isAfter]

theorem Precedes.length_lt (order : first.Precedes last) (different : first.offset ≠ last.offset) :
    last.after.length < first.after.length := by
  obtain ⟨chars, rest, isAfter, rfl⟩ := order
  cases chars with
  | nil => exact absurd rfl different
  | cons char chars =>
    simp only [advance, isAfter, List.length_append, List.length_cons]
    omega

end Place

namespace Regex

variable {start stop : Place} {nodes : List Node} {effect : Effect} {number : Nat}

/-! ## Places that are noted -/

theorem Matches.noted_inText (matched : Matches nodes start stop effect)
    (inText : (Place.start text).Precedes start) (slot : Nat) :
    effect.Behind (Place.start text) slot := by
  refine matched.noting (fun _ => True) (fun start _ effect => (Place.start text).Precedes start →
    effect.Behind (Place.start text) slot) (fun _ => ⟨trivial, trivial⟩) (fun _ _ _ => trivial)
    (fun _ => .of_none rfl) ?_ (fun _ _ => .forget _) ?_ ?_ (fun _ inText => .write inText) trivial
    inText
  · exact fun order before behind inText => (before inText).andThen (behind (inText.trans order))
  · exact fun _ isInner inner inText => .andThen (.write inText)
      (.andThen (inner trivial inText) (.write (inText.trans isInner.precedes)))
  · exact fun goesBack _ _ _ inner inText => inner trivial (Place.precedes_back inText goesBack)

namespace Node

mutual

def contents (number : Nat) : Node → List Node
  | .group other node => (if other = number then [node] else []) ++ contents number node
  | .concat nodes => contentsOf number nodes
  | .alternation nodes => contentsOf number nodes
  | .look _ _ node => contents number node
  | .repetition node _ _ _ => contents number node
  | .atomic node => contents number node
  | .conditional condition whenTrue whenFalse =>
    contents number condition ++ contents number whenTrue ++ contents number whenFalse
  | _ => []

/-- What stands in the groups with a number inside some nodes. -/
def contentsOf (number : Nat) : List Node → List Node
  | [] => []
  | node :: nodes => contents number node ++ contentsOf number nodes

end

theorem contentsOf_append (number : Nat) (first second : List Node) :
    contentsOf number (first ++ second) = contentsOf number first ++ contentsOf number second := by
  induction first with
  | nil => rfl
  | cons node nodes ih =>
    simp only [List.cons_append, contentsOf, ih, List.append_assoc]

theorem contentsOf_singleton (number : Nat) (node : Node) :
    contentsOf number [node] = contents number node := by
  simp [contentsOf]

theorem contentsOf_inside_subset (number : Nat) (node : Node) :
    contentsOf number node.inside ⊆ contents number node := by
  cases node <;> simp [inside, contents, contentsOf]

end Node

/-- Where a group took part in a match, the node inside it matches. -/
theorem Matches.noted (matched : Matches nodes start stop effect)
    (different : (Node.groupsOf nodes).Nodup) (positive : 0 < number) :
    Noted number [] (fun _ first last => ∃ inner ∈ Node.contentsOf number nodes, ∃ inside,
      Matches [inner] first last inside) effect := by
  have inside {node : Node} (isHeld : (Node.groupsOf [node]).Nodup ∧
      Node.contentsOf number [node] ⊆ Node.contentsOf number nodes) :
      (Node.groupsOf node.inside).Nodup ∧
        Node.contentsOf number node.inside ⊆ Node.contentsOf number nodes := by
    rw [Node.groupsOf_singleton, Node.groups_eq, Node.contentsOf_singleton] at isHeld
    exact ⟨(List.nodup_append.mp isHeld.1).2.1,
      List.Subset.trans (Node.contentsOf_inside_subset number node) isHeld.2⟩
  refine matched.noting (fun part => (Node.groupsOf part).Nodup ∧
      Node.contentsOf number part ⊆ Node.contentsOf number nodes)
    (fun _ _ effect => Noted number [] _ effect) ?_ (fun isHeld _ _ => inside isHeld)
    (.untouched fun _ _ => rfl) (fun _ => .andThen fun _ => id) (fun _ => .forget (by simp)) ?_
    (fun _ _ isHeld _ inner => inner (inside isHeld)) (fun _ => .write (by simp; omega) _)
    ⟨different, List.Subset.refl _⟩
  · rintro first second ⟨different, within⟩
    rw [Node.groupsOf_append] at different
    rw [Node.contentsOf_append, List.append_subset] at within
    obtain ⟨differentFirst, differentSecond, -⟩ := List.nodup_append.mp different
    exact ⟨⟨differentFirst, within.1⟩, differentSecond, within.2⟩
  · intro other node start stop effect isHeld isInner inner
    by_cases same : other = number
    · subst same
      have noGroup := isHeld.1
      rw [Node.groupsOf_singleton, Node.groups, List.nodup_cons] at noGroup
      obtain ⟨isStart, isStop, -⟩ :=
        (Matches.group isInner).ofGroup noGroup.1 (Nat.ne_of_gt positive)
      exact .placed start stop isStart isStop
        ⟨node, isHeld.2 (by simp [Node.contentsOf, Node.contents]), effect, isInner⟩
    · exact .inGroup (fun _ => id) (by simpa using same) (inner (inside isHeld)) start stop

theorem group_matched {source : String} {regex : Regex}
    (compiled : compile source ignoreCase = .ok regex) {expression : Expression}
    (read : Expression.read (pattern source ignoreCase).toList = .ok expression) {continued : Bool}
    {found : Match} (search : regex.searchFrom place continued = .ok (some found))
    (inText : (Place.start text).Precedes place) (positive : 0 < number) {span : Span}
    (isGroup : found.group? number = some span) :
    (Place.start text).Precedes span.start ∧
      ∃ inner ∈ expression.node.contents number, ∃ inside,
        Matches [inner] span.start span.stop inside := by
  obtain ⟨start, stop, effect, order, matched, isStart, isStop, -⟩ :=
    exists_matches_of_group compiled read search positive isGroup
  refine ⟨matched.noted_inText (inText.trans order) _ _ isStart, ?_⟩
  rw [← Node.contentsOf_singleton]
  refine (matched.noted ?_ positive).isHeld isStart isStop
  rw [Node.groupsOf_singleton]
  exact (Expression.read_numbered read).different

end Regex

/-! ## Matches of rules -/

theorem Alternation.search_inText {alternation : Alternation}
    (compiled : compile rules ignoreCase = .ok alternation)
    (search : alternation.search place = .ok (some found))
    (inText : (Place.start text).Precedes place) :
    (Place.start text).Precedes found.span.start ∧
      ∃ expression, ∃ alternative ∈ number 1 rules, ∃ inner ∈
          expression.node.contents alternative.wrapper, ∃ inside,
        Regex.Expression.read (Regex.pattern (Pattern.joinCapturing "|" (rules.map Rule.source))
          ignoreCase).toList = .ok expression ∧
        found.kind = alternative.kind ∧
        Regex.Matches [inner] found.span.start found.span.stop inside := by
  obtain ⟨isNumber, ⟨-, noRegex⟩ | ⟨-, joined, isJoined, compiledRegex, -⟩⟩ := compile_ok compiled
  all_goals obtain ⟨regex, result, isRegex, searched, belongs⟩ := search_eq_some search
  · rw [noRegex] at isRegex
    cases isRegex
  · rw [isJoined] at isRegex
    cases isRegex
    obtain ⟨wrapper, position, alternative, isFirst, located, sameKind, -⟩ :=
      ruleMatch?_eq_some belongs
    rw [isNumber] at located
    obtain ⟨-, listed, rfl⟩ := alternative?_eq_some located
    obtain ⟨expression, read, -⟩ := Regex.compile_ok compiledRegex
    obtain ⟨start, inner, isContent, inside, matched⟩ :=
      Regex.group_matched compiledRegex read searched inText (firstGroup?_eq_some isFirst).1
        (group?_of_firstGroup? isFirst)
    exact ⟨start, expression, alternative, List.mem_of_getElem? listed, inner, isContent, inside,
      read, sameKind, matched⟩

theorem Matcher.next_inText {matcher : Matcher} (compiled : compile rules ignoreCase = .ok matcher)
    {cursor after : Cursor} (search : matcher.next cursor place = .ok (some found, after))
    (inText : (Place.start text).Precedes place) :
    (Place.start text).Precedes found.span.start ∧
      found.span.start.Precedes found.span.stop := by
  obtain ⟨position, origin, alternation, joined, searched, cases⟩ := next_ok compiled search
  have behind : place.Precedes origin := by
    rcases cases with ⟨-, rfl⟩ | ⟨-, char, isNext⟩
    · exact .refl _
    · exact Place.precedes_next isNext
  obtain ⟨start, _, _, -, _, -, _, -, -, matched⟩ :=
    Alternation.search_inText joined searched (inText.trans behind)
  exact ⟨start, matched.precedes⟩

end Highlighter
