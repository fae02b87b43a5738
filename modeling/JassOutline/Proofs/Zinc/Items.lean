import JassOutline.Proofs.Zinc.Routine
import JassOutline.Proofs.Zinc.Variable

/-!
# Reading written items

The loop over the items of a container reads each written item and adds what it declares, and goes
through the sections that items are grouped into. It is proved once, for any reader of items that
reads single items back, and then used for structs and libraries.

## Key results

- `block_of_marks`: the parts of a block
- `items_of_writes`: a row of items adds what it writes
- `items_of_writes_closing`: all items of a container, through its brace
-/

namespace JassOutline.Zinc

open Lexeme

variable {front more : List Lexeme} {labels : List Label}

/-! ### First words -/

/-- The labels start with two words. -/
def StartsWithWords (labels : List Label) : Prop :=
  ∃ first second rest, labels = .word first :: .word second :: rest

/-- The labels start with a word that is none of the given ones. -/
def StartsWithOther (words : List String) (labels : List Label) : Prop :=
  ∃ word rest, labels = .word word :: rest ∧ word ∉ words

theorem StartsWithWords.words_append (words : List String) (h : StartsWithWords labels) :
    StartsWithWords (words.map .word ++ labels) := by
  obtain ⟨first, second, rest, rfl⟩ := h
  match words with
  | [] => exact ⟨first, second, rest, rfl⟩
  | [word] => exact ⟨word, first, .word second :: rest, rfl⟩
  | word :: next :: words =>
    exact ⟨word, next, words.map .word ++ .word first :: .word second :: rest, rfl⟩

theorem StartsWithOther.words_append {reserved words : List String}
    (hwords : ∀ word ∈ words, word ∉ reserved) (h : StartsWithOther reserved labels) :
    StartsWithOther reserved (words.map .word ++ labels) := by
  cases words with
  | nil => exact h
  | cons word words => exact ⟨word, words.map .word ++ labels, rfl, hwords _ List.mem_cons_self⟩

theorem startsWithWords_variableLabels (isConstant : Bool) (shape : VariableShape) :
    StartsWithWords (variableLabels isConstant shape) := by
  obtain ⟨type?, isArray, name?⟩ := shape
  cases isConstant <;> cases isArray <;> exact ⟨_, _, _, rfl⟩

/-- A variable starts with `constant` or with its type. -/
theorem startsWithOther_variableLabels {isConstant : Bool} {shape : VariableShape}
    {words : List String} (h : shape.isWritable isFree = true)
    (hwords : ∀ word ∈ words, word ∈ reservedWords ∧ word ≠ "constant") :
    StartsWithOther words (variableLabels isConstant shape) := by
  obtain ⟨type, name, hshape, htype, -⟩ := VariableShape.isWritable_iff.1 h
  rw [hshape]
  cases isConstant with
  | false =>
    refine ⟨type, _, rfl, fun hmem => ?_⟩
    exact ne_of_isFree htype (hwords type hmem).1 rfl
  | true => exact ⟨"constant", _, rfl, fun hmem => (hwords _ hmem).2 rfl⟩

/-! ### Modifiers -/

/-- The visibility of an item is its own or that of its section. -/
theorem acceptVisibility_of_shows {outer visibility : Visibility} {words : List String}
    (hshows : Shows outer visibility words) (h : front.map label = words.map .word ++ labels)
    (hlabels : StartsWithOther ["private", "public"] labels) (more : List Lexeme) :
    ∃ own rest, acceptVisibility (front ++ more) = (own, rest ++ more) ∧
      rest.map label = labels ∧ own.getD outer = visibility := by
  cases hshows with
  | inherited =>
    obtain ⟨word, later, rfl, hword⟩ := hlabels
    obtain ⟨first, rest, rfl, hfirst, -⟩ := labels_eq_cons.1 h
    simp only [List.mem_cons, List.not_mem_nil, or_false, not_or] at hword
    refine ⟨none, first :: rest, ?_, h, rfl⟩
    simp [acceptVisibility, Token.text_of_word hfirst, Visibility.ofWord?, hword]
  | own hvisibility =>
    obtain ⟨first, rest, rfl, hfirst, hrest⟩ := labels_eq_cons.1 h
    refine ⟨some visibility, rest, ?_, hrest, rfl⟩
    simp [acceptVisibility, Token.text_of_word hfirst, hvisibility]

/-- The binding is taken from the front. -/
theorem acceptBinding_of_words {binding : Binding}
    (h : front.map label = binding.words.map .word ++ labels)
    (hlabels : StartsWithOther ["static", "stub"] labels) (more : List Lexeme) :
    ∃ rest, acceptBinding (front ++ more) = (binding, rest ++ more) ∧
      rest.map label = labels := by
  cases binding with
  | ordinary =>
    obtain ⟨word, later, rfl, hword⟩ := hlabels
    obtain ⟨first, rest, rfl, hfirst, -⟩ := labels_eq_cons.1 h
    simp only [List.mem_cons, List.not_mem_nil, or_false, not_or] at hword
    refine ⟨first :: rest, ?_, h⟩
    simp [acceptBinding, acceptKeyword_of_word hfirst, hword]
  | static =>
    obtain ⟨first, rest, rfl, hfirst, hrest⟩ := labels_eq_cons.1 h
    exact ⟨rest, by simp [acceptBinding, acceptKeyword_of_word hfirst], hrest⟩
  | stub =>
    obtain ⟨first, rest, rfl, hfirst, hrest⟩ := labels_eq_cons.1 h
    exact ⟨rest, by simp [acceptBinding, acceptKeyword_of_word hfirst], hrest⟩

/-! ### Blocks -/

/-- The lexemes of a block: its head below the comments, what stands inside and its brace. -/
theorem block_of_marks {first : Lexeme} {comments : List CommentLine} {inner : List Mark}
    (h : (first :: front).map mark = Mark.below comments labels ++ inner ++ [closing])
    (hlabels : labels ≠ []) :
    ∃ later inside close, front = later ++ (inside ++ [close]) ∧
      (first :: later).map label = labels ∧ inside.map mark = inner ∧
      close.token.label = .sign "\x7d" ∧
      first.comments.map CommentLine.text = comments.map CommentLine.text := by
  rw [List.append_assoc] at h
  obtain ⟨head, behind, hsplit, hhead, hbehind⟩ := marks_eq_append.1 h
  obtain ⟨inside, last, rfl, hinside, hlast⟩ := marks_eq_append.1 hbehind
  obtain ⟨close, rest, rfl, hclose, hrest⟩ := List.map_eq_cons_iff.1 hlast
  obtain rfl : rest = [] := by simpa using hrest
  have hheadLabels := (label_of_mark hhead).trans (Mark.label_below ..)
  cases head with
  | nil => exact absurd hheadLabels.symm hlabels
  | cons lexeme later =>
    obtain ⟨rfl, rfl⟩ := List.cons.inj hsplit
    exact ⟨later, inside, close, rfl, hheadLabels, hinside, congrArg Mark.label hclose,
      comments_of_below hhead⟩

/-! ### The loop -/

section

variable {item : Visibility → List Mark → Declarations → Prop}
  {reader : Visibility → List CommentLine → List Lexeme → Reading Declarations}
  {hreader : ∀ visibility comments, Consumes (reader visibility comments)}

/-- Every written item is read, from its first lexeme on, below the comments of that lexeme. A
semicolon behind it could be taken for a part of it. -/
def ReadsItems (item : Visibility → List Mark → Declarations → Prop)
    (reader : Visibility → List CommentLine → List Lexeme → Reading Declarations) : Prop :=
  ∀ outer marks declared, item outer marks declared →
    ∀ first front, (first :: front).map mark = marks →
      ∀ more, startsWithSign ";" more = false →
        ∃ read, reader outer first.comments (first :: (front ++ more)) = .ok (read, more) ∧
          read.bare = declared.bare

/-- Every written item starts with two words. -/
def ItemsStartWithWords (item : Visibility → List Mark → Declarations → Prop) : Prop :=
  ∀ outer marks declared, item outer marks declared → StartsWithWords (marks.map Mark.label)

/-- Written items do not start with a semicolon. -/
theorem startsWithSign_of_items (hstarts : ItemsStartWithWords item) {visibility : Visibility}
    {marks : List Mark} {declared : Declarations} (h : ItemsWrite item visibility marks declared)
    (hfront : front.map mark = marks) (hmore : startsWithSign ";" more = false) :
    startsWithSign ";" (front ++ more) = false := by
  cases h with
  | nil =>
    obtain rfl : front = [] := by simpa using hfront
    exact hmore
  | item hitem _ =>
    obtain ⟨before, behind, rfl, hbefore, -⟩ := marks_eq_append.1 hfront
    obtain ⟨firstText, secondText, labels, hlabels⟩ := hstarts _ _ _ hitem
    have hwords := (label_of_mark hbefore).trans hlabels
    obtain ⟨first, rest, rfl, hfirst, -⟩ := labels_eq_cons.1 hwords
    exact startsWithSign_of_word hfirst ";"
  | group _ _ _ =>
    obtain ⟨first, rest, rfl, hfirst, -⟩ := List.map_eq_cons_iff.1 hfront
    exact startsWithSign_of_word (congrArg Mark.label hfirst) ";"

theorem items_cons {first : Lexeme} {text : String} {read : Declarations} {rest : List Lexeme}
    {visibility : Visibility} {outer : List Visibility} (hfirst : first.token.label = .word text)
    (hsection : sectionStart? (first :: front) = none)
    (hread : reader visibility first.comments (first :: front) = .ok (read, rest)) :
    items reader hreader visibility outer (first :: front) =
      (items reader hreader visibility outer rest).map fun answer =>
        ((read ++ answer.1.1, answer.1.2), answer.2) := by
  rw [items_eq_bind hreader outer (Token.isOperator_of_word hfirst _) hsection, hread]
  show Except.bind (items reader hreader visibility outer rest) _ = _
  cases items reader hreader visibility outer rest <;> rfl

theorem items_section {first brace : Lexeme} {text : String} {visibility inner : Visibility}
    {outer : List Visibility} (hfirst : first.token.label = .word text)
    (hbrace : brace.token.label = .sign "\x7b") (hinner : Visibility.ofWord? text = some inner) :
    items reader hreader visibility outer (first :: brace :: more) =
      items reader hreader inner (visibility :: outer) more := by
  have hsection : sectionStart? (first :: brace :: more) = some (inner, more) := by
    simp [sectionStart?, Token.isOperator_of_sign hbrace, Token.text_of_word hfirst, hinner]
  rw [items_eq_section hreader outer (Token.isOperator_of_word hfirst _) hsection]

theorem items_closing {close : Lexeme} {visibility around : Visibility} {outer : List Visibility}
    (hclose : close.token.label = .sign "\x7d") :
    items reader hreader visibility (around :: outer) (close :: more) =
      items reader hreader around outer more :=
  items_eq_closing hreader (around :: outer) (Token.isOperator_of_sign hclose _)

variable (hreader)

/-- A row of items adds what it writes, and leaves the section that is open as it was. -/
theorem items_of_writes (hreads : ReadsItems item reader) (hstarts : ItemsStartWithWords item)
    {visibility : Visibility} {marks : List Mark} {declared : Declarations}
    (h : ItemsWrite item visibility marks declared) (hfront : front.map mark = marks)
    (outer : List Visibility) (more : List Lexeme) (hmore : startsWithSign ";" more = false) :
    ∃ read : Declarations, read.bare = declared.bare ∧
      items reader hreader visibility outer (front ++ more) =
        (items reader hreader visibility outer more).map fun answer =>
          ((read ++ answer.1.1, answer.1.2), answer.2) := by
  -- The stack and what follows vary: inside a section, the section around it is on the stack
  induction h generalizing front outer more with
  | nil =>
    obtain rfl : front = [] := by simpa using hfront
    refine ⟨.none, rfl, ?_⟩
    simp only [List.nil_append, Declarations.none_append]
    cases items reader hreader _ outer more <;> rfl
  | item hitem hitems ih =>
    obtain ⟨before, behind, rfl, hbefore, hbehind⟩ := marks_eq_append.1 hfront
    obtain ⟨firstText, secondText, labels, hlabels⟩ := hstarts _ _ _ hitem
    have hwords := (label_of_mark hbefore).trans hlabels
    obtain ⟨first, rest, rfl, hfirst, hrest⟩ := labels_eq_cons.1 hwords
    obtain ⟨second, later, rfl, hsecond, -⟩ := labels_eq_cons.1 hrest
    obtain ⟨read, hread, hbare⟩ := hreads _ _ _ hitem first _ hbefore (behind ++ more)
      (startsWithSign_of_items hstarts hitems hbehind hmore)
    obtain ⟨others, hothers, hloop⟩ := ih hbehind outer more hmore
    -- A word follows the first one, so no section opens here
    have hsection : sectionStart? (first :: (second :: later ++ (behind ++ more))) = none := by
      simp [sectionStart?, Token.isOperator_of_word hsecond]
    refine ⟨read ++ others, by rw [Declarations.bare_append, hbare, hothers,
      Declarations.bare_append], ?_⟩
    rw [List.append_assoc, List.cons_append, items_cons hfirst hsection hread, hloop]
    cases items reader hreader _ outer more with
    | error => rfl
    | ok answer => simp [Except.map, Declarations.append_assoc]
  | @group around inner word _ _ _ _ hword _ _ ihInside ihRest =>
    obtain ⟨before, behind, rfl, hbefore, hbehind⟩ := marks_eq_append.1 hfront
    obtain ⟨first, rest, rfl, hfirst, hrest⟩ := List.map_eq_cons_iff.1 hbefore
    obtain ⟨brace, inside, rfl, hbrace, hinside⟩ := List.map_eq_cons_iff.1 hrest
    obtain ⟨close, later, rfl, hclose, hlater⟩ := List.map_eq_cons_iff.1 hbehind
    obtain ⟨read, hbare, hloop⟩ :=
      ihInside hinside (around :: outer) (close :: (later ++ more))
        (startsWithSign_of_sign (congrArg Mark.label hclose) ";")
    obtain ⟨others, hothers, hloopRest⟩ := ihRest hlater outer more hmore
    -- The two ends of the section move its visibility on the stack and off again
    have hsection : items reader hreader around outer
        (first :: brace :: (inside ++ close :: (later ++ more))) = _ :=
      items_section (congrArg Mark.label hfirst) (congrArg Mark.label hbrace) hword
    have hclosing : items reader hreader inner (around :: outer) (close :: (later ++ more)) = _ :=
      items_closing (congrArg Mark.label hclose)
    refine ⟨read ++ others, by rw [Declarations.bare_append, hbare, hothers,
      Declarations.bare_append], ?_⟩
    simp only [List.append_assoc, List.cons_append]
    rw [hsection, hloop, hclosing, hloopRest]
    cases items reader hreader around outer more with
    | error => rfl
    | ok answer => simp [Except.map, Declarations.append_assoc]

/-- The items of a container are read through the brace that closes it. -/
theorem items_of_writes_closing (hreads : ReadsItems item reader)
    (hstarts : ItemsStartWithWords item)
    {visibility : Visibility} {marks : List Mark} {declared : Declarations}
    (h : ItemsWrite item visibility marks declared) (hfront : front.map mark = marks)
    {close : Lexeme} (hclose : close.token.label = .sign "\x7d") (more : List Lexeme) :
    ∃ read : Declarations, read.bare = declared.bare ∧
      items reader hreader visibility [] (front ++ close :: more) =
        .ok ((read, close.token), more) := by
  obtain ⟨read, hbare, hloop⟩ := items_of_writes hreader hreads hstarts h hfront [] (close :: more)
    (startsWithSign_of_sign hclose ";")
  have hend : items reader hreader visibility [] (close :: more) =
      .ok ((.none, close.token), more) :=
    items_eq_closing hreader [] (Token.isOperator_of_sign hclose _)
  refine ⟨read, hbare, ?_⟩
  rw [hloop, hend]
  simp [Except.map]

end

end JassOutline.Zinc
