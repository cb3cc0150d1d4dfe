import Highlighter.Grammar.Decoding
import Highlighter.Proofs.Dictionary
import Highlighter.Proofs.Success
import Mathlib.Data.List.Basic

/-!
# Grammars written and read again

A grammar that is written as a record and read from it is the same grammar.  What stands in the way
is only what has no notation of its own: a mode called like the reference to the mode around, a kind
of keywords called like the pattern, infinite numbers, and groups numbered by no machine words.
-/
namespace Highlighter.Grammar

open Data (Value)

/-! ## What can be written -/

/-- Whether the numbers of groups are machine words. -/
def ScopeSpec.isWritable : ScopeSpec → Bool
  | .name _ => true
  | .groups scopes => scopes.entries.all fun entry => entry.1 < Word.size 64

def Keywords.isWritable (keywords : Keywords) : Bool :=
  keywords.classes.entries.all fun entry => entry.1 != patternName

namespace Mode

def hasWritableAttributes (mode : Mode) : Bool :=
  mode.scope.all ScopeSpec.isWritable && mode.className.all ScopeSpec.isWritable &&
    mode.beginScope.all ScopeSpec.isWritable && mode.endScope.all ScopeSpec.isWritable &&
    mode.keywords.all Keywords.isWritable && mode.relevance.all Float.isFinite

mutual

def isWritable : Mode → Bool
  | mode@{ contains, variants, starts, .. } =>
    hasWritableAttributes mode && childrenWritable contains && variantsWritable variants &&
      startsWritable starts

def childrenWritable : Option (List (Child Mode)) → Bool
  | none => true
  | some children => eachChildWritable children

def eachChildWritable : List (Child Mode) → Bool
  | [] => true
  | child :: children => childWritable child && eachChildWritable children

def childWritable : Child Mode → Bool
  | .self => true
  | .named name => name != selfName
  | .inline mode => isWritable mode

def variantsWritable : Option (List Mode) → Bool
  | none => true
  | some modes => eachWritable modes

def eachWritable : List Mode → Bool
  | [] => true
  | mode :: modes => isWritable mode && eachWritable modes

def startsWritable : Option Mode → Bool
  | none => true
  | some mode => isWritable mode

end

end Mode

def Definition.isWritable (definition : Definition) : Bool :=
  (definition.modes.entries.all fun entry => entry.2.isWritable) && definition.root.isWritable

namespace Decode

/-! ## Parts without modes -/

theorem mapM_restores {α β : Type} {write : α → β} {read : β → Except DecodeError α}
    {items : List α} (each : ∀ item ∈ items, read (write item) = .ok item) :
    (items.map write).mapM read = .ok items := by
  induction items with
  | nil => rfl
  | cons item items ih =>
    rw [List.map_cons, List.mapM_cons, each item List.mem_cons_self,
      ih fun other member => each other (List.mem_cons_of_mem _ member)]
    rfl

theorem optional_restores {α : Type} {write : α → Value} {read : Value → Except DecodeError α}
    {item : Option α} (some : ∀ value, item = .some value → read (write value) = .ok value)
    (notNull : ∀ value, item = .some value → (write value).isNull = false) :
    optional read ((item.map write).getD .null) = .ok item := by
  cases item with
  | none => rfl
  | some value =>
    rw [optional, Option.map_some, Option.getD_some, notNull value rfl, some value rfl]
    rfl

theorem text_restores (direct : Bool) (content : String) :
    text direct (.text content) = .ok content := by
  cases direct <;> rfl

theorem boolean_restores (value : Bool) : boolean (.boolean value) = .ok value :=
  rfl

theorem number_restores (direct : Bool) {value : Float} (isFinite : value.isFinite = true) :
    number direct (.number value) = .ok value := by
  rw [Value.number, if_pos isFinite]
  cases direct <;> rfl

theorem eachText_restores (direct : Bool) (contents : List String) :
    (contents.map Value.text).mapM (text direct) = .ok contents :=
  mapM_restores fun content _ => text_restores direct content

theorem texts_restore (direct : Bool) (contents : List String) :
    texts direct (encodeTexts contents) = .ok contents :=
  eachText_restores direct contents

theorem patternSpec_restores (pattern : PatternSpec) :
    patternSpec pattern.encode = .ok pattern := by
  cases pattern with
  | source source => rfl
  | sequence parts =>
    exact congrArg (Except.map PatternSpec.sequence) (eachText_restores false parts)

theorem wordList_restores (words : WordList) : wordList words.encode = .ok words := by
  cases words with
  | spaced words => rfl
  | words words => exact congrArg (Except.map WordList.words) (eachText_restores false words)

theorem subLanguage_restores (language : SubLanguage) :
    subLanguage language.encode = .ok language := by
  cases language with
  | one name => rfl
  | candidates names =>
    exact congrArg (Except.map SubLanguage.candidates) (eachText_restores false names)

theorem hook_restores (hook : Hook) : Decode.hook hook.encode = .ok hook := by
  cases hook <;> decide

theorem hooks_restore (direct : Bool) (hooks : List Hook) :
    Decode.hooks direct (.list (hooks.map Hook.encode)) = .ok hooks :=
  mapM_restores fun hook _ => hook_restores hook

/-! ## Scopes of groups -/

theorem natural?_digitsOf {number : Nat} (isWord : number < Word.size 64) :
    natural? (Decimal.digitsOf number) = some number := by
  have areDigits : ∀ char ∈ Nat.toDigits 10 number, char.isDigit :=
    fun char => Nat.isDigit_of_mem_toDigits (by decide) (by decide)
  have isValue : (Nat.toDigits 10 number).foldl
      (fun value digit => 10 * value + (digit.toNat - 48)) 0 = number :=
    Nat.ofDigitChars_toDigits (by decide) (by decide)
  have noSign : unsigned (Nat.toDigits 10 number) = Nat.toDigits 10 number := by
    unfold unsigned
    split
    · rename_i digits isSigned
      have isDigit := areDigits '+' (isSigned ▸ List.mem_cons_self)
      cases isDigit
    · rfl
  simp only [natural?, Decimal.digitsOf, noSign, isValue]
  simp [Nat.toDigits_ne_nil, List.all_eq_true.mpr areDigits, isWord]

theorem groupNumber_restores {number : Nat} (isWord : number < Word.size 64) :
    groupNumber (.text (ScopeSpec.groupName number)) = .ok number := by
  simp only [groupNumber, Value.text, ScopeSpec.groupName, String.toList_ofList,
    natural?_digitsOf isWord]

theorem scopeSpec_restores {scope : ScopeSpec} (writable : scope.isWritable = true) :
    scopeSpec scope.encode = .ok scope := by
  cases scope with
  | name scope => rfl
  | groups scopes =>
    rw [ScopeSpec.isWritable, List.all_eq_true] at writable
    simp only [ScopeSpec.encode, Value.object, scopeSpec, List.map_map]
    rw [mapM_restores]
    · exact congrArg (Except.ok ∘ ScopeSpec.groups) scopes.ofList_entries
    · intro entry member
      have isWord : entry.1 < Word.size 64 := by simpa using writable entry member
      simp only [Function.comp_apply, groupNumber_restores isWord, text_restores]
      rfl

/-! ## Keywords -/

theorem foldlM_keywordsMember {kinds : List (String × WordList)}
    (writable : ∀ entry ∈ kinds, (entry.1 == Keywords.patternName) = false) (hasPattern : Bool)
    (known : Keywords) :
    (kinds.map fun entry => (Value.text entry.1, entry.2.encode)).foldlM keywordsMember
        (hasPattern, known) =
      .ok (hasPattern,
        { known with
          classes := kinds.foldl
            (fun dictionary entry => dictionary.insert entry.1 entry.2) known.classes }) := by
  induction kinds generalizing known with
  | nil => rfl
  | cons kind kinds ih =>
    have isAdded : keywordsMember (hasPattern, known) (Value.text kind.1, kind.2.encode) =
        .ok (hasPattern, known.withKind kind.1 kind.2) := by
      have notPattern := writable kind List.mem_cons_self
      rw [keywordsMember, text_restores]
      change (if (kind.1 == Keywords.patternName) = true then _ else _) = _
      rw [notPattern, if_neg Bool.false_ne_true, wordList_restores]
      rfl
    rw [List.map_cons, List.foldlM_cons, isAdded]
    exact ih (fun entry member => writable entry (List.mem_cons_of_mem _ member))
      _

theorem keywords_restore {keywords : Keywords} (writable : keywords.isWritable = true) :
    Decode.keywords keywords.encode = .ok keywords := by
  rw [Keywords.isWritable, List.all_eq_true] at writable
  have isRead := foldlM_keywordsMember
    (fun entry member => by simpa using writable entry member) keywords.pattern.isSome
    { pattern := keywords.pattern }
  have isRebuilt : keywords.classes.entries.foldl
      (fun dictionary entry => dictionary.insert entry.1 entry.2) .empty = keywords.classes :=
    keywords.classes.ofList_entries
  simp only [isRebuilt] at isRead
  obtain ⟨pattern, classes⟩ := keywords
  simp only [Keywords.encode, Value.object, Decode.keywords, List.map_append, List.map_map,
    List.foldlM_append]
  cases pattern with
  | none => exact congrArg (Except.map Prod.snd) isRead
  | some source => exact congrArg (Except.map Prod.snd) isRead

/-! ## Attributes of modes -/

section Optional

theorem optional_scope {scope : Option ScopeSpec}
    (writable : scope.all ScopeSpec.isWritable = true) :
    optional scopeSpec ((scope.map ScopeSpec.encode).getD .null) = .ok scope := by
  refine optional_restores ?_ ?_
  · rintro value rfl
    exact scopeSpec_restores writable
  · rintro (_ | _) - <;> rfl

theorem optional_pattern (pattern : Option PatternSpec) :
    optional patternSpec ((pattern.map PatternSpec.encode).getD .null) = .ok pattern := by
  refine optional_restores (fun value _ => patternSpec_restores value) ?_
  rintro (_ | _) - <;> rfl

theorem optional_text (direct : Bool) (content : Option String) :
    optional (text direct) ((content.map Value.text).getD .null) = .ok content :=
  optional_restores (fun value _ => text_restores direct value) fun _ _ => rfl

theorem optional_keywords {keywords : Option Keywords}
    (writable : keywords.all Keywords.isWritable = true) :
    optional Decode.keywords ((keywords.map Keywords.encode).getD .null) = .ok keywords := by
  refine optional_restores ?_ fun _ _ => rfl
  rintro value rfl
  exact keywords_restore writable

theorem optional_number (direct : Bool) {value : Option Float}
    (isFinite : value.all Float.isFinite = true) :
    optional (number direct) ((value.map Value.number).getD .null) = .ok value := by
  refine optional_restores ?_ ?_
  · rintro value rfl
    exact number_restores direct isFinite
  · rintro value rfl
    rw [Option.all_some] at isFinite
    rw [Value.number, if_pos isFinite]
    rfl

theorem optional_boolean (value : Option Bool) :
    optional boolean ((value.map Value.boolean).getD .null) = .ok value :=
  optional_restores (fun value _ => boolean_restores value) fun _ _ => rfl

theorem optional_subLanguage (language : Option SubLanguage) :
    optional subLanguage ((language.map SubLanguage.encode).getD .null) = .ok language := by
  refine optional_restores (fun value _ => subLanguage_restores value) ?_
  rintro (_ | _) - <;> rfl

theorem optional_hooks (direct : Bool) (hooks : Option (List Hook)) :
    optional (Decode.hooks direct)
        ((hooks.map fun hooks => Value.list (hooks.map Hook.encode)).getD .null) =
      .ok hooks :=
  optional_restores (fun value _ => hooks_restore direct value) fun _ _ => rfl

end Optional

end Decode

namespace Mode

def valueOf (mode : Mode) : Attribute → Value
  | .scope => (mode.scope.map ScopeSpec.encode).getD .null
  | .className => (mode.className.map ScopeSpec.encode).getD .null
  | .beginScope => (mode.beginScope.map ScopeSpec.encode).getD .null
  | .endScope => (mode.endScope.map ScopeSpec.encode).getD .null
  | .beginPattern => (mode.beginPattern.map PatternSpec.encode).getD .null
  | .endPattern => (mode.endPattern.map PatternSpec.encode).getD .null
  | .matchPattern => (mode.matchPattern.map PatternSpec.encode).getD .null
  | .beginKeywords => (mode.beginKeywords.map Value.text).getD .null
  | .beforeMatch => (mode.beforeMatch.map Value.text).getD .null
  | .keywords => (mode.keywords.map Keywords.encode).getD .null
  | .illegal => (mode.illegal.map PatternSpec.encode).getD .null
  | .contains => (encodeContains mode.contains).getD .null
  | .variants => (encodeVariants mode.variants).getD .null
  | .starts => (encodeStarts mode.starts).getD .null
  | .relevance => (mode.relevance.map Value.number).getD .null
  | .endsWithParent => (mode.endsWithParent.map Value.boolean).getD .null
  | .endsParent => (mode.endsParent.map Value.boolean).getD .null
  | .excludeBegin => (mode.excludeBegin.map Value.boolean).getD .null
  | .excludeEnd => (mode.excludeEnd.map Value.boolean).getD .null
  | .returnBegin => (mode.returnBegin.map Value.boolean).getD .null
  | .returnEnd => (mode.returnEnd.map Value.boolean).getD .null
  | .skip => (mode.skip.map Value.boolean).getD .null
  | .subLanguage => (mode.subLanguage.map SubLanguage.encode).getD .null
  | .hooks => (mode.hooks.map fun hooks => .list (hooks.map Hook.encode)).getD .null

def taking (target source : Mode) : Attribute → Mode
  | .scope => { target with scope := source.scope }
  | .className => { target with className := source.className }
  | .beginScope => { target with beginScope := source.beginScope }
  | .endScope => { target with endScope := source.endScope }
  | .beginPattern => { target with beginPattern := source.beginPattern }
  | .endPattern => { target with endPattern := source.endPattern }
  | .matchPattern => { target with matchPattern := source.matchPattern }
  | .beginKeywords => { target with beginKeywords := source.beginKeywords }
  | .beforeMatch => { target with beforeMatch := source.beforeMatch }
  | .keywords => { target with keywords := source.keywords }
  | .illegal => { target with illegal := source.illegal }
  | .contains => { target with contains := source.contains }
  | .variants => { target with variants := source.variants }
  | .starts => { target with starts := source.starts }
  | .relevance => { target with relevance := source.relevance }
  | .endsWithParent => { target with endsWithParent := source.endsWithParent }
  | .endsParent => { target with endsParent := source.endsParent }
  | .excludeBegin => { target with excludeBegin := source.excludeBegin }
  | .excludeEnd => { target with excludeEnd := source.excludeEnd }
  | .returnBegin => { target with returnBegin := source.returnBegin }
  | .returnEnd => { target with returnEnd := source.returnEnd }
  | .skip => { target with skip := source.skip }
  | .subLanguage => { target with subLanguage := source.subLanguage }
  | .hooks => { target with hooks := source.hooks }

theorem members_eq (mode : Mode) :
    mode.members = Attribute.all.map fun which => (which.name, mode.valueOf which) := by
  cases mode
  rfl

theorem foldl_taking (mode : Mode) : Attribute.all.foldl (taking · mode) {} = mode := by
  cases mode
  rfl

end Mode

namespace Decode

open Mode (encodeChildren encodeEach)

variable {which : Attribute} {direct : Bool} {source : Mode} {seen : List Attribute}

/-- What it takes that the modes inside a mode are read as they were written. -/
structure RestoresParts (direct : Bool) (mode : Mode) : Prop where
  contains : ∀ children ∈ mode.contains, Decode.children (encodeChildren children) = .ok children
  variants : ∀ variants ∈ mode.variants, Decode.modes direct (encodeEach variants) = .ok variants
  starts : ∀ next ∈ mode.starts, Decode.mode direct next.serialize = .ok next

theorem setAttribute_plain (notContains : which ≠ .contains) (notVariants : which ≠ .variants)
    (notStarts : which ≠ .starts) (direct : Bool) (mode : Mode) (value : Value) :
    setAttribute direct mode which value = setPlain direct mode which value := by
  cases value <;> cases which <;> first | rfl | contradiction

theorem setAttribute_restores (writable : source.hasWritableAttributes = true)
    (parts : RestoresParts direct source) (target : Mode) (which : Attribute) :
    setAttribute direct target which (source.valueOf which) =
      .ok (target.taking source which) := by
  simp only [Mode.hasWritableAttributes, Bool.and_eq_true] at writable
  obtain ⟨⟨⟨⟨⟨scope, className⟩, beginScope⟩, endScope⟩, keywords⟩, relevance⟩ := writable
  cases which with
  | contains =>
    simp only [Mode.valueOf, Mode.taking]
    cases isContains : source.contains with
    | none => rfl
    | some children =>
      simp only [Mode.encodeContains, Option.getD_some, setAttribute,
        parts.contains children isContains]
      rfl
  | variants =>
    simp only [Mode.valueOf, Mode.taking]
    cases isVariants : source.variants with
    | none => rfl
    | some variants =>
      simp only [Mode.encodeVariants, Option.getD_some, setAttribute,
        parts.variants variants isVariants]
      rfl
  | starts =>
    simp only [Mode.valueOf, Mode.taking]
    cases isStarts : source.starts with
    | none => rfl
    | some next =>
      have isRead := parts.starts next isStarts
      rw [Mode.serialize, Value.object, Decode.mode] at isRead
      simp only [Mode.encodeStarts, Option.getD_some, Value.object, setAttribute, isRead]
      rfl
  | _ =>
    rw [setAttribute_plain (by simp) (by simp) (by simp)]
    simp only [Mode.valueOf, setPlain, optional_scope scope, optional_scope className,
      optional_scope beginScope, optional_scope endScope, optional_pattern, optional_text,
      optional_keywords keywords, optional_number direct relevance, optional_boolean,
      optional_subLanguage, optional_hooks]
    rfl

/-! ## Modes -/

theorem keyAttribute?_name (direct : Bool) (which : Attribute) :
    keyAttribute? direct (.text which.name) = .ok (some which) := by
  have isNamed : Attribute.ofName? which.name = some which := by cases which <;> decide
  cases direct <;> exact congrArg Except.ok isNamed

section Parts

variable (writable : source.hasWritableAttributes = true) (parts : RestoresParts direct source)

include writable parts

theorem modeMember_restores (target : Mode) (unseen : which ∉ seen) :
    modeMember direct target seen (.text which.name, source.valueOf which) =
      .ok (target.taking source which, which :: seen) := by
  have notSeen : seen.contains which = false := by simpa using unseen
  rw [modeMember, keyAttribute?_name]
  change (if seen.contains which = true then _ else _) = _
  rw [notSeen, if_neg Bool.false_ne_true, setAttribute_restores writable parts]
  rfl

theorem modeMembers_restores {attributes : List Attribute} (distinct : attributes.Nodup)
    (target : Mode) (unseen : ∀ which ∈ attributes, which ∉ seen) :
    modeMembers direct target seen
        (attributes.map fun which => (.text which.name, source.valueOf which)) =
      .ok (attributes.foldl (Mode.taking · source) target) := by
  induction attributes generalizing target seen with
  | nil => rfl
  | cons which attributes ih =>
    rw [List.nodup_cons] at distinct
    rw [List.map_cons, modeMembers,
      modeMember_restores writable parts target (unseen which List.mem_cons_self)]
    refine ih distinct.2 _ ?_
    intro other member
    rw [List.mem_cons, not_or]
    refine ⟨?_, unseen other (List.mem_cons_of_mem _ member)⟩
    rintro rfl
    exact distinct.1 member

theorem mode_of_parts : Decode.mode direct source.serialize = .ok source := by
  have isRead := modeMembers_restores writable parts (by decide : Attribute.all.Nodup) {}
    (fun _ _ => List.not_mem_nil)
  rw [Mode.foldl_taking] at isRead
  rw [Mode.serialize, Value.object, Mode.members_eq, List.map_map, Decode.mode]
  exact isRead

end Parts

mutual

theorem mode_restores (direct : Bool) :
    (mode : Mode) → mode.isWritable = true → Decode.mode direct mode.serialize = .ok mode
  | mode@{ contains, variants, starts, .. }, writable => by
      simp only [Mode.isWritable, Bool.and_eq_true] at writable
      obtain ⟨⟨⟨attributes, children⟩, variations⟩, next⟩ := writable
      exact mode_of_parts attributes
        { contains := contains_restore contains children
          variants := variants_restore direct variants variations
          starts := starts_restore direct starts next }

theorem contains_restore :
    (contains : Option (List (Child Mode))) → Mode.childrenWritable contains = true →
      ∀ children ∈ contains, Decode.children (encodeChildren children) = .ok children
  | none, _, _, member => by cases member
  | some children, writable, _, rfl => children_restore children writable

theorem children_restore :
    (children : List (Child Mode)) → Mode.eachChildWritable children = true →
      Decode.children (encodeChildren children) = .ok children
  | [], _ => rfl
  | child :: children, writable => by
      rw [Mode.eachChildWritable, Bool.and_eq_true] at writable
      rw [encodeChildren, Decode.children, child_restores child writable.1,
        children_restore children writable.2]
      rfl

theorem child_restores :
    (child : Child Mode) → Mode.childWritable child = true →
      Decode.child (Mode.encodeChild child) = .ok child
  | .self, _ => rfl
  | .named name, writable => by
      have notSelf : (name == selfName) = false := by
        simpa [Mode.childWritable, bne] using writable
      simp only [Mode.encodeChild, Value.text, Decode.child, notSelf]
      rfl
  | .inline mode, writable => by
      have isRead := mode_restores false mode writable
      rw [Mode.serialize, Value.object, Decode.mode] at isRead
      rw [Mode.encodeChild, Value.object, Decode.child, isRead]
      rfl

theorem variants_restore (direct : Bool) :
    (variants : Option (List Mode)) → Mode.variantsWritable variants = true →
      ∀ modes ∈ variants, Decode.modes direct (encodeEach modes) = .ok modes
  | none, _, _, member => by cases member
  | some modes, writable, _, rfl => modes_restore direct modes writable

theorem modes_restore (direct : Bool) :
    (modes : List Mode) → Mode.eachWritable modes = true →
      Decode.modes direct (encodeEach modes) = .ok modes
  | [], _ => rfl
  | mode :: modes, writable => by
      rw [Mode.eachWritable, Bool.and_eq_true] at writable
      have isRead := mode_restores direct mode writable.1
      rw [Mode.serialize] at isRead
      rw [encodeEach, Decode.modes, isRead, modes_restore direct modes writable.2]
      rfl

theorem starts_restore (direct : Bool) :
    (starts : Option Mode) → Mode.startsWritable starts = true →
      ∀ next ∈ starts, Decode.mode direct next.serialize = .ok next
  | none, _, _, member => by cases member
  | some mode, writable, _, rfl => mode_restores direct mode writable

end

/-! ## Grammars -/

theorem byName_restores {α : Type} {dictionary : Dictionary String α} {write : α → Value}
    {read : Value → Except DecodeError α}
    (each : ∀ entry ∈ dictionary.entries, read (write entry.2) = .ok entry.2) :
    (do
      let written := Value.object (dictionary.entries.map fun entry => (entry.1, write entry.2))
      let entries ← (← members true written).mapM fun member => do
        let name ← text true member.1
        let item ← read member.2
        pure (name, item)
      return Dictionary.ofList entries : Except DecodeError (Dictionary String α)) =
      .ok dictionary := by
  have isRead := @mapM_restores _ _
    (fun entry : String × α => (Value.text entry.1, write entry.2))
    (fun member => do
      let name ← text true member.1
      let item ← read member.2
      pure (name, item))
    dictionary.entries (fun entry member => by
      rw [text_restores, each entry member]
      rfl)
  have isWritten :
      members true (.object (dictionary.entries.map fun entry => (entry.1, write entry.2))) =
        .ok (dictionary.entries.map fun entry => (Value.text entry.1, write entry.2)) := by
    simp [Value.object, members]
  simp only [isWritten, Success.ok_bind, isRead]
  exact congrArg Except.ok dictionary.ofList_entries

theorem textsByName_restores (names : Dictionary String String) :
    textsByName (.object (names.entries.map fun entry => (entry.1, .text entry.2))) =
      .ok names :=
  byName_restores fun entry _ => text_restores true entry.2

theorem modesByName_restores {modes : Dictionary String Mode}
    (writable : ∀ entry ∈ modes.entries, entry.2.isWritable = true) :
    modesByName (.object (modes.entries.map fun entry => (entry.1, entry.2.serialize))) =
      .ok modes :=
  byName_restores fun entry member => mode_restores true entry.2 (writable entry member)

theorem filter_members {names : List String}
    (apart : ∀ which ∈ Attribute.all, names.contains which.name = false) (mode : Mode) :
    (mode.members.filter fun member => names.contains member.1) = [] := by
  rw [Mode.members_eq, List.filter_map, List.map_eq_nil_iff, List.filter_eq_nil_iff]
  intro which member
  simpa using apart which member

theorem modeMembers_unknown {direct : Bool} {own : List (String × Value)}
    (unknown : ∀ member ∈ own, Attribute.ofName? member.1 = none) (mode : Mode)
    (seen : List Attribute) (rest : List (Value × Value)) :
    modeMembers direct mode seen ((own.map fun member => (.text member.1, member.2)) ++ rest) =
      modeMembers direct mode seen rest := by
  induction own with
  | nil => rfl
  | cons member own ih =>
    have isKey : keyAttribute? direct (.text member.1) = .ok none := by
      cases direct <;> exact congrArg Except.ok (unknown member List.mem_cons_self)
    rw [List.map_cons, List.cons_append, modeMembers, modeMember, isKey]
    exact ih fun other inOwn => unknown other (List.mem_cons_of_mem _ inOwn)

end Decode

namespace Definition

theorem memberD_restores {α : Type} {names : List String} {definition : Definition}
    {name : String} {value : Value} {result : α} {read : Value → Except DecodeError α}
    (isOnly : (definition.ownMembers.filter fun member => names.contains member.1) =
      [(name, value)])
    (apart : ∀ which ∈ Attribute.all, names.contains which.name = false)
    (isRead : read value = .ok result) (default : α) :
    Decode.memberD names (definition.ownMembers ++ definition.root.members) default read =
      .ok result := by
  rw [Decode.memberD, Decode.only?, List.filter_append, isOnly,
    Decode.filter_members apart, List.append_nil]
  exact isRead

/-- A grammar that can be written is read as it was written. -/
theorem decode_serialize (definition : Definition) (writable : definition.isWritable = true) :
    Definition.decode definition.serialize = .ok definition := by
  rw [isWritable, Bool.and_eq_true, List.all_eq_true] at writable
  obtain ⟨modes, root⟩ := writable
  have isRecord : Decode.members true definition.serialize =
      .ok ((definition.ownMembers ++ definition.root.members).map
        fun member => (.text member.1, member.2)) := rfl
  have isNamed := @Decode.mapM_restores _ _
    (fun member : String × Value => (Value.text member.1, member.2))
    (fun member => do
      let name ← Decode.text true member.1
      pure (name, member.2))
    (definition.ownMembers ++ definition.root.members) (fun member _ => by
      rw [Decode.text_restores]
      rfl)
  have isRoot := Decode.mode_restores false definition.root root
  rw [Mode.serialize, Value.object, Decode.mode] at isRoot
  have isUnknown : ∀ member ∈ definition.ownMembers, Attribute.ofName? member.1 = none := by
    have apart : ∀ name ∈ ["name", "aliases", "caseInsensitive", "disableAutodetect",
        "supersetOf", "scopeAliases", "modes"], Attribute.ofName? name = none := by decide
    exact fun member inOwn => apart member.1 (List.mem_map_of_mem inOwn)
  have isRead := @Decode.modeMembers_unknown false definition.ownMembers isUnknown {} []
    (definition.root.members.map fun member => (.text member.1, member.2))
  rw [isRoot, ← List.map_append] at isRead
  have name := @memberD_restores _ ["name"] definition _ _ _ _ rfl (by decide)
    (Decode.text_restores true definition.name) ""
  have aliases := @memberD_restores _ ["aliases"] definition _ _ _ _ rfl (by decide)
    (Decode.texts_restore true definition.aliases) []
  have caseInsensitive := @memberD_restores _ ["caseInsensitive", "case_insensitive"]
    definition _ _ _ _ rfl (by decide) (Decode.boolean_restores definition.caseInsensitive) false
  have disableAutodetect := @memberD_restores _ ["disableAutodetect"] definition _ _ _ _ rfl
    (by decide) (Decode.boolean_restores definition.disableAutodetect) false
  have supersetOf := @memberD_restores _ ["supersetOf"] definition _ _ _ _ rfl (by decide)
    (Decode.optional_text true definition.supersetOf) none
  have scopeAliases := @memberD_restores _ ["scopeAliases", "classNameAliases"] definition _ _ _ _
    rfl (by decide) (Decode.textsByName_restores definition.scopeAliases) {}
  have modes := @memberD_restores _ ["modes"] definition _ _ _ _ rfl (by decide)
    (Decode.modesByName_restores modes) {}
  simp only [decode, Decode.definition, isRecord, isNamed, name, aliases, caseInsensitive,
    disableAutodetect, supersetOf, scopeAliases, modes, isRead, Success.ok_bind]
  rfl

/-- A grammar with modes in all places, kinds of keywords and scopes of groups. -/
def nestedGrammar : Definition where
  name := "nested"
  aliases := ["nest"]
  modes := .ofList
    [("self", { variants := some [{ beginPattern := some (.source "x"), relevance := some 0.5 }] })]
  root :=
    { keywords := some (({} : Keywords).withPattern "[a-z]+" |>.withKind "literal" (.words ["on"]))
      contains := some
        [ .named "self_less",
          .inline
            { beginPattern := some (.sequence ["a", "b"])
              beginScope := some (.groups (.ofList [(1, "first"), (10, "second")]))
              contains := some [.self]
              starts := some { endsWithParent := some true, hooks := some [.endSameAsBegin] } } ] }

theorem decode_serialize_nested :
    nestedGrammar.isWritable = true ∧
      Definition.decode nestedGrammar.serialize = .ok nestedGrammar :=
  have writable : nestedGrammar.isWritable = true := by decide +kernel
  ⟨writable, decode_serialize nestedGrammar writable⟩

end Definition
end Highlighter.Grammar
