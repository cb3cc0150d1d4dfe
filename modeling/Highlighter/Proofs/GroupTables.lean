import Highlighter.Compiled.Resolved
import Highlighter.Proofs.GroupNumbers
import Highlighter.Proofs.Matcher

/-!
# Tables of group numbers

The numbers of groups are counted in three places: when sources are joined, when the rules of an
alternation are listed, and when the parts of a sequence get their scopes.  All of them count the
openings of the joined source, also when the rules that are joined are joined sources again.
-/
namespace Highlighter

namespace Pattern

variable {tokens : List Token} {place number index : Nat} {source separator : String}
  {sources : List String}

/-! ## Sources in a group -/

/-- A token without the number that it refers to. -/
def Token.unnumbered : Token → Token
  | .reference _ => .reference 0
  | token => token

/-- A source stands in a group among tokens: at `place` the group with the number is opened, the
tokens of the source follow, but for the numbers that they refer to, and the group is closed. -/
structure Wraps (tokens : List Token) (place number : Nat) (source : String) : Prop where
  opens : groupAt? tokens place = some number
  encloses : .opening true ['('] ::
      ((Token.ofSource source.toList).map Token.unnumbered ++ [.verbatim [')']]) <+:
    (tokens.map Token.unnumbered).drop place

theorem isCapturing_unnumbered (token : Token) :
    token.unnumbered.isCapturing = token.isCapturing := by
  cases token <;> rfl

theorem unnumbered_enclosed (number : Nat) (source : String) :
    ((enclosed number source).map Token.reread).map Token.unnumbered =
      .opening true ['('] ::
        ((Token.ofSource source.toList).map Token.unnumbered ++ [.verbatim [')']]) := by
  have same (token : Token) : (token.shift number).reread.unnumbered = token.unnumbered := by
    cases token <;> rfl
  simp only [enclosed, List.map_cons, List.map_append, List.map_map, List.map_nil,
    Function.comp_def, same]
  rfl

theorem wraps_joined (isSeparator : separator ∈ ["|", ""])
    (separable : ∀ source ∈ sources, isSeparable source) (isSource : sources[index]? = some source) :
    Wraps (Token.ofSource (joinCapturing separator sources).toList)
      (tokensBefore (Token.ofSource separator.toList) sources index) (wrapper sources index)
      source := by
  obtain ⟨front, back, isJoined, isLength, isNumber⟩ :=
    exists_front_joined isSeparator separable isSource
  rw [isJoined, ← isLength]
  constructor
  · rw [← Nat.add_zero front.length, groupAt?_append_right]
    exact congrArg some ((Nat.add_comm _ _).trans isNumber)
  · rw [List.map_append, List.map_append, unnumbered_enclosed, List.drop_left' (List.length_map _)]
    exact List.prefix_append _ _

theorem le_countP_of_groupAt? (opens : groupAt? tokens place = some number) :
    number ≤ tokens.countP Token.isCapturing := by
  rw [← countP_take_of_groupAt? opens]
  exact (List.take_sublist _ _).countP_le

/-- What stands in a group of a source stands in it still when the source has become a group. -/
theorem Wraps.nested {innerPlace innerNumber : Nat} {part : String}
    (outer : Wraps tokens place number source)
    (inner : Wraps (Token.ofSource source.toList) innerPlace innerNumber part) :
    Wraps tokens (place + 1 + innerPlace) (number + innerNumber) part := by
  obtain ⟨back, isBack⟩ := outer.encloses
  have within := lt_length_of_groupAt? outer.opens
  have innerWithin := lt_length_of_groupAt? inner.opens
  let front := (tokens.map Token.unnumbered).take place
  have isFront : front.length = place := by simp [front, Nat.min_eq_left (Nat.le_of_lt within)]
  have isTokens : tokens.map Token.unnumbered = front ++ .opening true ['('] ::
      ((Token.ofSource source.toList).map Token.unnumbered ++ ([.verbatim [')']] ++ back)) := by
    rw [← List.take_append_drop place (tokens.map Token.unnumbered), ← isBack, List.cons_append,
      List.append_assoc]
  constructor
  · have opened := outer.opens
    rw [← groupAt?_change isCapturing_unnumbered, groupAt?, Option.ite_none_right_eq_some,
      Option.some_inj] at opened
    rw [← groupAt?_change isCapturing_unnumbered, isTokens, ← isFront,
      (groupAt?_enclosed front _ _ opened.2).2 innerPlace (by simpa using innerWithin),
      groupAt?_change isCapturing_unnumbered, inner.opens]
    rfl
  · rw [isTokens, Nat.add_assoc, ← isFront, List.drop_length_add_append, Nat.add_comm 1,
      List.drop_succ_cons,
      List.drop_append_of_le_length (by simpa using Nat.le_of_lt innerWithin)]
    exact inner.encloses.trans (List.prefix_append _ _)

end Pattern

open Pattern (Token Wraps countGroups isSeparable joinCapturing tokensBefore wrapper)

/-! ## The table of an alternation -/

namespace Alternation

variable {alternation : Alternation} {alternative : Alternative} {found : RuleMatch}

theorem number_eq (before : Nat) (rules : List Rule) :
    number (before + 1) rules = rules.mapIdx fun index rule =>
      ⟨rule.kind, before + wrapper (rules.map Rule.source) index, countGroups rule.source⟩ := by
  induction rules generalizing before with
  | nil => rfl
  | cons rule rules ih =>
    have isNext : before + 1 + 1 + countGroups rule.source =
        before + (1 + countGroups rule.source) + 1 := by omega
    rw [number, isNext, ih, List.mapIdx_cons, List.map_cons]
    simp only [Pattern.wrapper_succ, Nat.add_assoc]
    rfl

/-- A group of a match of a rule is the one with the same number behind the group that the rule
has become. -/
theorem group?_of_ruleMatch? {whole : Regex.Match}
    (belongs : alternation.ruleMatch? whole = some found)
    (isListed : alternation.alternatives[found.position]? = some alternative) {key : Nat}
    (positive : 0 < key) (within : key ≤ alternative.width) :
    found.group? key = whole.group? (alternative.wrapper + key) := by
  obtain ⟨wrapper, position, other, -, located, -, rfl, isGroups⟩ := ruleMatch?_eq_some belongs
  obtain ⟨-, isOther, rfl⟩ := alternative?_eq_some located
  obtain rfl : alternative = other := Option.some_inj.mp (isListed.symm.trans isOther)
  obtain ⟨key, rfl⟩ := Nat.exists_eq_add_one_of_ne_zero (Nat.ne_of_gt positive)
  rw [RuleMatch.group?, isGroups, List.getElem?_take_of_lt within, List.getElem?_drop]
  rfl

end Alternation

/-! ## The table of a sequence -/

namespace Compiled.Resolved

variable {scopes : Dictionary Nat String} {renamed : String → String}

theorem partScopes_eq (part before : Nat) (sources : List String) :
    partScopes scopes renamed (part + 1) before sources = sources.mapIdx fun index _ =>
      (part + before + wrapper sources index, (scopes.get? (part + index + 1)).map renamed) := by
  induction sources generalizing part before with
  | nil => rfl
  | cons source sources ih =>
    have isFirst : part + 1 + before = part + before + wrapper (source :: sources) 0 :=
      Nat.add_right_comm part 1 before
    rw [partScopes, ih, isFirst, List.mapIdx_cons]
    refine congrArg _ (congrArg (sources.mapIdx ·) (funext₂ fun index _ => ?_))
    rw [Pattern.wrapper_succ, Nat.add_right_comm part 1 index]
    exact congrArg (·, _) (by omega)

end Compiled.Resolved
end Highlighter
