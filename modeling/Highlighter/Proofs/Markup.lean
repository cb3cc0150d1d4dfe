import Highlighter.Scope.Html

/-!
# HTML read back

The HTML of a tree is read by someone who knows nothing of the tree but takes what stands between
angle brackets for a tag and what stands between an ampersand and a semicolon for an entity.  The
reader finds the spans of the tree, nested as its scoped nodes are, and its text.
-/
namespace Highlighter.Scope

mutual

/-- The labels in a piece. -/
def Piece.labels : Piece → List String
  | .text _ => []
  | .group scope pieces => scope.toList ++ labelsOf pieces

def labelsOf : List Piece → List String
  | [] => []
  | piece :: rest => piece.labels ++ labelsOf rest

end

namespace Html

/-! ## The reader -/

/-- What HTML consists of: tags, and characters as they are meant. -/
inductive Item where
  | opening (classes : List Char)
  | closing
  | char (char : Char)
  deriving DecidableEq, Repr

/-- The tag with `content` between its angle brackets.  There are no tags but those of spans
that have classes. -/
def Item.ofTag? (content : List Char) : Option Item :=
  if content = "/span".toList then some .closing
  else
    match Text.after? "span class=\"".toList content with
    | none => none
    | some classes =>
      if classes.getLast? = some '"' then some (.opening classes.dropLast) else none

def Item.char? : Item → Option Char
  | .char meant => some meant
  | _ => none

/-- The entities by what stands between the ampersand and the semicolon. -/
def entities : List (List Char × Char) :=
  [ ("amp".toList, '&'), ("lt".toList, '<'), ("gt".toList, '>'), ("quot".toList, '"'),
    ("#x27".toList, '\'') ]

/-- Where a reader stands.  What it has seen of a tag or of an entity has the newest character
first. -/
inductive Position where
  | text
  | tag (seen : List Char)
  | entity (seen : List Char)

/-- Reads HTML.  It is refused if a tag or an entity is unknown or breaks off, or if an angle
bracket or a quotation mark stands in the text. -/
def read : Position → List Char → Option (List Item)
  | .text, [] => some []
  | .tag _, [] | .entity _, [] => none
  | .text, char :: rest =>
    if char = '<' then read (.tag []) rest
    else if char = '&' then read (.entity []) rest
    else if char = '>' ∨ char = '"' ∨ char = '\'' then none
    else (read .text rest).map (.char char :: ·)
  | .tag seen, char :: rest =>
    if char = '>' then
      (Item.ofTag? seen.reverse).bind fun item => (read .text rest).map (item :: ·)
    else read (.tag (char :: seen)) rest
  | .entity seen, char :: rest =>
    if char = ';' then
      (entities.lookup seen.reverse).bind fun meant => (read .text rest).map (.char meant :: ·)
    else read (.entity (char :: seen)) rest

/-- What HTML shows: a character, or something in a span. -/
inductive Element where
  | char (char : Char)
  | span (classes : List Char) (inner : List Element)

/-- Nests items.  Of the elements of spans that are closed behind the items and opened in front
of them, those of the innermost span come first. -/
def nest : List Item → Option (List (List Element))
  | [] => some [[]]
  | .char char :: items =>
    match nest items with
    | some (inner :: outer) => some ((.char char :: inner) :: outer)
    | _ => none
  | .closing :: items => (nest items).map ([] :: ·)
  | .opening classes :: items =>
    match nest items with
    | some (inner :: around :: outer) => some ((.span classes inner :: around) :: outer)
    | _ => none

/-- The elements of HTML in which every span is closed where it should be. -/
def elements? (html : String) : Option (List Element) :=
  match (read .text html.toList).bind nest with
  | some [elements] => some elements
  | _ => none

/-- The text of HTML: the tags are removed and the entities decoded. -/
def text? (html : String) : Option String :=
  (read .text html.toList).map fun items => String.ofList (items.filterMap Item.char?)

/-! ## Trees as items and elements -/

mutual

/-- The items of a piece. -/
def itemsOf (classPrefix : String) : Piece → List Item
  | .text content => content.toList.map .char
  | .group none pieces => itemsOfAll classPrefix pieces
  | .group (some scope) pieces =>
    .opening (classList scope classPrefix).toList :: itemsOfAll classPrefix pieces ++ [.closing]

def itemsOfAll (classPrefix : String) : List Piece → List Item
  | [] => []
  | piece :: rest => itemsOf classPrefix piece ++ itemsOfAll classPrefix rest

end

mutual

/-- What a piece shows: its text, in a span for every node with a scope. -/
def elementsOf (classPrefix : String) : Piece → List Element
  | .text content => content.toList.map .char
  | .group none pieces => elementsOfAll classPrefix pieces
  | .group (some scope) pieces =>
    [.span (classList scope classPrefix).toList (elementsOfAll classPrefix pieces)]

def elementsOfAll (classPrefix : String) : List Piece → List Element
  | [] => []
  | piece :: rest => elementsOf classPrefix piece ++ elementsOfAll classPrefix rest

end

/-! ## Reading text -/

theorem read_escapeChar (char : Char) (rest : List Char) :
    read .text (escapeChar char ++ rest) = (read .text rest).map (.char char :: ·) := by
  unfold escapeChar
  split
  case h_6 noAmpersand noLess noGreater noQuote noApostrophe =>
    rw [List.singleton_append, read, if_neg noLess, if_neg noAmpersand, if_neg]
    rintro (isGreater | isQuote | isApostrophe)
    · exact noGreater isGreater
    · exact noQuote isQuote
    · exact noApostrophe isApostrophe
  all_goals rfl

theorem read_escaped (chars rest : List Char) :
    read .text (chars.flatMap escapeChar ++ rest) =
      (read .text rest).map (chars.map .char ++ ·) := by
  induction chars with
  | nil => simp
  | cons char chars ih =>
    rw [List.flatMap_cons, List.append_assoc, read_escapeChar, ih, Option.map_map]
    rfl

/-! ## Reading tags -/

theorem read_tag {content : List Char} (clean : '>' ∉ content) (seen rest : List Char) :
    read (.tag seen) (content ++ '>' :: rest) =
      (Item.ofTag? (seen.reverse ++ content)).bind fun item =>
        (read .text rest).map (item :: ·) := by
  induction content generalizing seen with
  | nil => simp [read]
  | cons char content ih =>
    rw [List.mem_cons, not_or] at clean
    obtain ⟨isOther, clean⟩ := clean
    rw [List.cons_append, read, if_neg (Ne.symm isOther), ih clean, List.reverse_cons,
      List.append_assoc, List.singleton_append]

theorem ofTag?_opening (classes : List Char) :
    Item.ofTag? ("span class=\"".toList ++ classes ++ ['"']) = some (.opening classes) := by
  have after : Text.after? "span class=\"".toList ("span class=\"".toList ++ classes ++ ['"']) =
      some (classes ++ ['"']) := by
    rw [Text.after?_eq_some_iff, List.append_assoc]
  have noClosing : "span class=\"".toList ++ classes ++ ['"'] ≠ "/span".toList := by
    simp
  rw [Item.ofTag?, if_neg noClosing, after]
  simp

theorem mem_of_mem_splitOn {separator char : Char} {text part : List Char}
    (isPart : part ∈ Text.splitOn separator text) (member : char ∈ part) : char ∈ text := by
  induction text generalizing part with
  | nil =>
    simp only [Text.splitOn, List.mem_singleton] at isPart
    subst isPart
    cases member
  | cons first text ih =>
    rw [Text.splitOn] at isPart
    split at isPart
    · rcases List.mem_cons.mp isPart with rfl | isPart
      · cases member
      · exact List.mem_cons_of_mem _ (ih isPart member)
    · split at isPart
      · simp only [List.mem_singleton] at isPart
        subst isPart
        exact List.mem_cons.mpr (.inl (List.mem_singleton.mp member))
      · rename_i other others isSplit
        rcases List.mem_cons.mp isPart with rfl | isPart
        · rcases List.mem_cons.mp member with rfl | member
          · exact List.mem_cons_self
          · exact List.mem_cons_of_mem _ (ih (by simp [isSplit]) member)
        · exact List.mem_cons_of_mem _ (ih (by simp [isSplit, isPart]) member)

theorem not_mem_laterClasses {parts : List (List Char)} (clean : ∀ part ∈ parts, '>' ∉ part)
    (depth : Nat) : '>' ∉ laterClasses depth parts := by
  induction parts generalizing depth with
  | nil => simp [laterClasses]
  | cons part parts ih =>
    obtain ⟨first, others⟩ := List.forall_mem_cons.mp clean
    simp [laterClasses, first, ih others, List.mem_replicate]

theorem not_mem_classList {scope classPrefix : String} (cleanScope : '>' ∉ scope.toList)
    (cleanPrefix : '>' ∉ classPrefix.toList) : '>' ∉ (classList scope classPrefix).toList := by
  unfold classList
  split
  · rename_i name isName
    rw [Text.after?_eq_some_iff] at isName
    rw [isName] at cleanScope
    simpa using fun member => cleanScope (List.mem_append_right _ member)
  · split
    · exact cleanPrefix
    · rename_i first parts isSplit
      have clean : ∀ part ∈ first :: parts, '>' ∉ part := fun part isPart member =>
        cleanScope (mem_of_mem_splitOn (by rw [isSplit]; exact isPart) member)
      obtain ⟨cleanFirst, cleanParts⟩ := List.forall_mem_cons.mp clean
      simp [cleanPrefix, cleanFirst, not_mem_laterClasses cleanParts]

theorem read_openTag {scope classPrefix : String} (cleanScope : '>' ∉ scope.toList)
    (cleanPrefix : '>' ∉ classPrefix.toList) (rest : List Char) :
    read .text ((openTag classPrefix scope).toList ++ rest) =
      (read .text rest).map (.opening (classList scope classPrefix).toList :: ·) := by
  have clean : '>' ∉ "span class=\"".toList ++ (classList scope classPrefix).toList ++ ['"'] := by
    simp [not_mem_classList cleanScope cleanPrefix]
  have isTag : (openTag classPrefix scope).toList ++ rest =
      '<' :: ("span class=\"".toList ++ (classList scope classPrefix).toList ++ ['"'] ++
        '>' :: rest) := by
    simp [openTag]
  rw [isTag, read, if_pos rfl, read_tag clean, List.reverse_nil, List.nil_append, ofTag?_opening]
  rfl

theorem read_closeTag (rest : List Char) :
    read .text (closeTag.toList ++ rest) = (read .text rest).map (.closing :: ·) := by
  have isTag : closeTag.toList ++ rest = '<' :: ("/span".toList ++ '>' :: rest) := rfl
  rw [isTag, read, if_pos rfl, read_tag (by decide)]
  rfl

/-! ## Reading trees -/

mutual

theorem read_ofPiece {classPrefix : String} (cleanPrefix : '>' ∉ classPrefix.toList) :
    (piece : Piece) → (∀ label ∈ piece.labels, '>' ∉ label.toList) → (rest : List Char) →
    read .text ((ofPiece classPrefix piece).toList ++ rest) =
      (read .text rest).map (itemsOf classPrefix piece ++ ·)
  | .text content, _, rest => by
    simpa [ofPiece, escape, itemsOf] using read_escaped content.toList rest
  | .group none pieces, clean, rest => by
    have inside := read_ofPieces cleanPrefix pieces (by simpa [Piece.labels] using clean) rest
    simpa [ofPiece, wrap, itemsOf] using inside
  | .group (some scope) pieces, clean, rest => by
    simp only [Piece.labels, Option.toList_some, List.singleton_append, List.forall_mem_cons]
      at clean
    simp only [ofPiece, wrap, String.toList_append, List.append_assoc, itemsOf]
    rw [read_openTag clean.1 cleanPrefix, read_ofPieces cleanPrefix pieces clean.2, read_closeTag,
      Option.map_map, Option.map_map]
    rfl

theorem read_ofPieces {classPrefix : String} (cleanPrefix : '>' ∉ classPrefix.toList) :
    (pieces : List Piece) → (∀ label ∈ labelsOf pieces, '>' ∉ label.toList) → (rest : List Char) →
    read .text ((ofPieces classPrefix pieces).toList ++ rest) =
      (read .text rest).map (itemsOfAll classPrefix pieces ++ ·)
  | [], _, rest => by simp [ofPieces, itemsOfAll]
  | piece :: pieces, clean, rest => by
    simp only [labelsOf, List.forall_mem_append] at clean
    simp only [ofPieces, String.toList_append, List.append_assoc, itemsOfAll]
    rw [read_ofPiece cleanPrefix piece clean.1, read_ofPieces cleanPrefix pieces clean.2,
      Option.map_map]
    rfl

end

/-! ## Nesting -/

theorem nest_chars {items : List Item} {around : List Element} {outer : List (List Element)}
    (nests : nest items = some (around :: outer)) (chars : List Char) :
    nest (chars.map .char ++ items) = some ((chars.map .char ++ around) :: outer) := by
  induction chars with
  | nil => exact nests
  | cons char chars ih => simp [nest, ih]

section Tree

variable (classPrefix : String)

mutual

theorem nest_itemsOf : (piece : Piece) → {items : List Item} → {around : List Element} →
    {outer : List (List Element)} → nest items = some (around :: outer) →
    nest (itemsOf classPrefix piece ++ items) =
      some ((elementsOf classPrefix piece ++ around) :: outer)
  | .text content, _, _, _, nests => nest_chars nests content.toList
  | .group none pieces, _, _, _, nests => nest_itemsOfAll pieces nests
  | .group (some scope) pieces, items, around, outer, nests => by
    have inside : nest (.closing :: items) = some ([] :: around :: outer) := by
      simp [nest, nests]
    have whole := nest_itemsOfAll pieces inside
    simp [itemsOf, elementsOf, nest, whole]

theorem nest_itemsOfAll : (pieces : List Piece) → {items : List Item} → {around : List Element} →
    {outer : List (List Element)} → nest items = some (around :: outer) →
    nest (itemsOfAll classPrefix pieces ++ items) =
      some ((elementsOfAll classPrefix pieces ++ around) :: outer)
  | [], _, _, _, nests => nests
  | piece :: pieces, _, _, _, nests => by
    rw [itemsOfAll, elementsOfAll, List.append_assoc, List.append_assoc]
    exact nest_itemsOf piece (nest_itemsOfAll pieces nests)

end

/-! ## The text of items -/

mutual

theorem chars_itemsOf : (piece : Piece) →
    (itemsOf classPrefix piece).filterMap Item.char? = piece.content.toList
  | .text content => by
    simp [itemsOf, Piece.content, Item.char?, Function.comp_def]
  | .group none pieces => chars_itemsOfAll pieces
  | .group (some scope) pieces => by
    simp [itemsOf, Piece.content, List.filterMap_cons, Item.char?, chars_itemsOfAll pieces]

theorem chars_itemsOfAll : (pieces : List Piece) →
    (itemsOfAll classPrefix pieces).filterMap Item.char? = (contents pieces).toList
  | [] => rfl
  | piece :: pieces => by
    rw [itemsOfAll, List.filterMap_append, chars_itemsOf piece, chars_itemsOfAll pieces, contents,
      String.toList_append]

end

end Tree

/-! ## Rendered trees -/

section Rendered

variable {classPrefix : String} {tree : Tree}

theorem read_render (cleanPrefix : '>' ∉ classPrefix.toList)
    (cleanLabels : ∀ label ∈ tree.toPiece.labels, '>' ∉ label.toList) :
    read .text (render classPrefix tree).toList = some (itemsOf classPrefix tree.toPiece) := by
  have whole := read_ofPiece cleanPrefix tree.toPiece cleanLabels []
  simpa [render, read] using whole

theorem elements?_render (cleanPrefix : '>' ∉ classPrefix.toList)
    (cleanLabels : ∀ label ∈ tree.toPiece.labels, '>' ∉ label.toList) :
    elements? (render classPrefix tree) = some (elementsOf classPrefix tree.toPiece) := by
  have nests := nest_itemsOf classPrefix tree.toPiece (show nest [] = some [[]] from rfl)
  rw [List.append_nil, List.append_nil] at nests
  rw [elements?, read_render cleanPrefix cleanLabels, Option.bind_some, nests]

theorem text?_render (cleanPrefix : '>' ∉ classPrefix.toList)
    (cleanLabels : ∀ label ∈ tree.toPiece.labels, '>' ∉ label.toList) :
    text? (render classPrefix tree) = some tree.text := by
  rw [text?, read_render cleanPrefix cleanLabels, Option.map_some, chars_itemsOf,
    String.ofList_toList]
  rfl

/-- A reader of the HTML of a tree finds spans nested as the scoped nodes are, with the classes of
their scopes, and nothing else but the text, whatever characters it has.  So trees with the same
HTML have the same text. -/
theorem render_shows_tree (cleanPrefix : '>' ∉ classPrefix.toList)
    (cleanLabels : ∀ label ∈ tree.toPiece.labels, '>' ∉ label.toList) :
    elements? (render classPrefix tree) = some (elementsOf classPrefix tree.toPiece) ∧
      text? (render classPrefix tree) = some tree.text ∧
      ∀ (otherPrefix : String) (other : Tree), '>' ∉ otherPrefix.toList →
        (∀ label ∈ other.toPiece.labels, '>' ∉ label.toList) →
        render otherPrefix other = render classPrefix tree → other.text = tree.text := by
  refine ⟨elements?_render cleanPrefix cleanLabels, text?_render cleanPrefix cleanLabels, ?_⟩
  intro otherPrefix other cleanOther cleanOthers same
  have shown := text?_render cleanOther cleanOthers
  rw [same, text?_render cleanPrefix cleanLabels] at shown
  exact (Option.some.inj shown).symm

end Rendered

/-- Text that looks like markup, inside nested nodes with and without scopes. -/
def markupAsText : Tree where
  pieces :=
    [ .text "<b>&amp;",
      .group (some "title.function")
        [.text "\"</span>'", .group none [.group (some "language:a\"b") [], .text "&"]] ]

theorem render_shows_markupAsText :
    text? (render "hljs-" markupAsText) = some "<b>&amp;\"</span>'&" ∧
      elements? (render "hljs-" markupAsText) =
        some (elementsOf "hljs-" markupAsText.toPiece) := by
  have shows := render_shows_tree (show '>' ∉ "hljs-".toList by decide)
    (show ∀ label ∈ markupAsText.toPiece.labels, '>' ∉ label.toList by decide)
  exact ⟨shows.2.1, shows.1⟩

end Html
end Highlighter.Scope
