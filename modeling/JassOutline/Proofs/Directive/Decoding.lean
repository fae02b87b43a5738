import JassOutline.Proofs.Directive.Frame
import JassOutline.Proofs.Extraction.Partition
import JassOutline.TextMacro.Invocation

/-!
# What directives for text macros say

An invocation is written with its arguments as string literals, and the header of a definition with
its parameters in parentheses or behind `takes`. However such a line is framed, and whatever its
arguments hold, the stages up to the table of macros read from it what was written: it is not
touched by the blanking of comments, is recognised as the directive it is, and gives the name and
the list back. Both forms of a header register the same macro.

## Key results

- `TextMacro.listItems_of_labels`: the items of a list
- `Invocation.ofLine_of_labels`: what the tokens of an invocation say
- `TextMacro.signature?_of_applied`, `TextMacro.signature?_of_takes`: what those of a header say
- `decodes_macroDirectives`: what is read from the lines as they are written
-/

namespace JassOutline

open Text Token

variable {name : String} {items behind : List Label} {tokens rest : List Token}

/-! ### Written directives -/

/-- An invocation behind its marker. -/
def Invocation.written (isOptional : Bool) (name : String) (arguments : List String) : List Char :=
  let call := applied name (arguments.map quoted)
  spaced "runtextmacro" (if isOptional then spaced "optional" call else call)

/-- The header of a definition behind its marker. -/
inductive TextMacro.HeaderWrites (name : String) (parameters : List String) : List Char → Prop where
  | parentheses :
    HeaderWrites name parameters (spaced "textmacro" (applied name parameters))
  | takes :
    parameters ≠ [] →
    HeaderWrites name parameters
      (spaced "textmacro" (spaced name (spaced "takes" (commaList parameters))))

/-! ### Lists -/

namespace TextMacro

variable {accept : Token → Bool}

theorem listItems_of_closing (h : tokens.map label = .sign ")" :: behind) (expecting : Bool) :
    listItems accept expecting tokens = [] := by
  obtain ⟨closing, later, rfl, hclosing, -⟩ := labels_eq_cons.1 h
  rw [listItems, isOperator_of_sign hclosing]
  rfl

/-- Comments are read over, behind the list as everywhere. -/
theorem listItems_of_comments (haccept : ∀ token, token.kind = .comment → accept token = false)
    (h : ∀ token ∈ tokens, token.kind = .comment) (expecting : Bool) :
    listItems accept expecting tokens = [] := by
  induction tokens generalizing expecting with
  | nil => rw [listItems]
  | cons token rest ih =>
    obtain ⟨htoken, hrest⟩ := List.forall_mem_cons.1 h
    have hsign : ∀ sign, token.isOperator sign = false := fun sign => by
      rw [isOperator, htoken]
      rfl
    cases expecting with
    | true => simp [listItems, hsign, haccept token htoken, ih hrest]
    | false => simp [listItems, hsign, ih hrest]

/-- The items of a list, if nothing behind it is taken for one. -/
theorem listItems_of_labels (hitems : ∀ item ∈ items, item.kind ≠ .operator ∧
      ∀ token : Token, token.label = item → accept token = true)
    (h : tokens.map label = separated items)
    (hrest : ∀ expecting, listItems accept expecting rest = []) :
    listItems accept true (tokens ++ rest) = items.map Label.text := by
  induction items generalizing tokens with
  | nil =>
    obtain rfl : tokens = [] := List.map_eq_nil_iff.1 h
    exact hrest true
  | cons item items ih =>
    obtain ⟨⟨hkind, haccept⟩, hitems⟩ := List.forall_mem_cons.1 hitems
    -- An item ends no list, and is accepted
    have hfirst : ∀ token : Token, token.label = item → ∀ later,
        listItems accept true (token :: later) = item.text :: listItems accept false later := by
      intro token htoken later
      have hclosing : token.isOperator ")" = false := by
        rw [isOperator, show token.kind = item.kind from congrArg Label.kind htoken]
        simp [hkind]
      rw [listItems, hclosing, if_neg (by simp), if_pos rfl, if_pos (haccept token htoken),
        show token.text = item.text from congrArg Label.text htoken]
    cases items with
    | nil =>
      obtain ⟨token, later, rfl, htoken, hlater⟩ := labels_eq_cons.1 h
      obtain rfl : later = [] := List.map_eq_nil_iff.1 hlater
      rw [List.cons_append, hfirst token htoken, List.nil_append, hrest]
      rfl
    | cons next items =>
      obtain ⟨token, later, rfl, htoken, hlater⟩ := labels_eq_cons.1 h
      -- Behind an item the next one is expected only behind a comma
      obtain ⟨comma, others, rfl, hcomma, hothers⟩ := labels_eq_cons.1 hlater
      rw [List.cons_append, hfirst token htoken, List.cons_append, listItems,
        isOperator_of_sign hcomma, isOperator_of_sign hcomma, if_neg (by decide),
        if_neg (by decide)]
      exact congrArg (item.text :: ·) (ih hitems hothers)

/-! ### What the tokens of a directive say -/

theorem isIdentifier_of_label {parameters : List String} :
    ∀ item ∈ parameters.map Label.word, item.kind ≠ .operator ∧
      ∀ token : Token, token.label = item → token.isIdentifier = true := by
  refine List.forall_mem_map.2 fun parameter _ => ⟨by simp [Label.word], fun token htoken => ?_⟩
  exact isIdentifier_of_word htoken

theorem texts_word (parameters : List String) :
    (parameters.map Label.word).map Label.text = parameters := by
  rw [List.map_map]
  exact List.map_id' parameters

theorem listItems_parameters {parameters : List String}
    (h : tokens.map label = separated (parameters.map .word))
    (hrest : ∀ expecting, listItems Token.isIdentifier expecting rest = []) :
    listItems Token.isIdentifier true (tokens ++ rest) = parameters := by
  rw [listItems_of_labels isIdentifier_of_label h hrest, texts_word]

/-- A header with its parameters in parentheses. -/
theorem signature?_of_applied {header : SourceLine} {parameters : List String}
    (h : (directiveTokens header).map label =
      .word "textmacro" :: (appliedLabels name (parameters.map .word) ++ behind)) :
    signature? header = some (name, parameters) := by
  obtain ⟨keyword, others, htokens, -, hothers⟩ := labels_eq_cons.1 h
  obtain ⟨named, opening, list, rest, rfl, hnamed, hopening, hlist, hrest⟩ :=
    exists_of_applied hothers
  rw [signature?, htokens]
  simp only [isIdentifier_of_word hnamed, if_true, text_of_word hnamed, parametersOf,
    isOperator_of_sign hopening, beq_self_eq_true, Bool.true_or,
    listItems_parameters hlist (listItems_of_closing hrest)]

/-- A header with its parameters behind `takes`, and nothing but comments behind them. -/
theorem signature?_of_takes {header : SourceLine} {parameters : List String}
    (h : (directiveTokens header).map label =
      .word "textmacro" :: .word name :: .word "takes" ::
        (separated (parameters.map .word) ++ behind))
    (hbehind : ∀ label ∈ behind, label.kind = .comment) :
    signature? header = some (name, parameters) := by
  obtain ⟨keyword, others, htokens, -, hothers⟩ := labels_eq_cons.1 h
  obtain ⟨named, later, rfl, hnamed, hlater⟩ := labels_eq_cons.1 hothers
  obtain ⟨takes, inside, rfl, htakes, hinside⟩ := labels_eq_cons.1 hlater
  obtain ⟨list, rest, rfl, hlist, hrest⟩ := labels_eq_append.1 hinside
  have hcomments : ∀ token ∈ rest, token.kind = .comment := fun token htoken =>
    hbehind token.label (hrest ▸ List.mem_map_of_mem htoken)
  have hnone : ∀ token : Token, token.kind = .comment → token.isIdentifier = false :=
    fun token htoken => by
      rw [Token.isIdentifier, htoken]
      rfl
  rw [signature?, htokens]
  simp only [isIdentifier_of_word hnamed, if_true, text_of_word hnamed, parametersOf,
    isKeyword_of_eq htakes, Bool.or_true,
    listItems_parameters hlist (listItems_of_comments hnone hcomments)]

end TextMacro

namespace Invocation

/-- The label of a string literal. -/
def literal (text : String) : Label := ⟨.string, quoted text⟩

theorem unquote_quoted (text : String) : unquote (quoted text).toList = text.toList := by
  simp [unquote, quoted, dropLeading?]

theorem dropKeyword_of_word {token : Token} {text : String} (h : token.label = .word text)
    (word : String) (rest : List Token) :
    dropKeyword word (token :: rest) =
      if text = word then (true, rest) else (false, token :: rest) := by
  rw [dropKeyword, isKeyword_of_word h]
  simp

/-- The name and the arguments of a call. -/
theorem target_of_applied {arguments : List String}
    (h : tokens.map label =
      appliedLabels name (arguments.map literal) ++ behind) :
    target tokens = (name, arguments) := by
  obtain ⟨named, opening, list, rest, rfl, hnamed, hopening, hlist, hrest⟩ :=
    exists_of_applied h
  have hstrings : ∀ item ∈ arguments.map literal, item.kind ≠ .operator ∧
      ∀ token : Token, token.label = item → token.isString = true :=
    List.forall_mem_map.2 fun argument _ => ⟨by simp [literal], fun token htoken => by
      rw [Token.isString, show token.kind = .string from congrArg Label.kind htoken]
      rfl⟩
  have hlist := TextMacro.listItems_of_labels hstrings hlist (TextMacro.listItems_of_closing hrest)
  rw [target, isIdentifier_of_word hnamed, if_pos rfl, text_of_word hnamed, argumentsOf,
    isOperator_of_sign hopening, beq_self_eq_true, if_pos rfl, hlist, List.map_map, List.map_map]
  have hunquote : ((fun text : String => String.ofList (unquote text.toList)) ∘ Label.text) ∘
      literal = id := funext fun argument => by
    simp [literal, unquote_quoted]
  exact congrArg (Prod.mk name) ((congrArg (List.map · arguments) hunquote).trans (List.map_id _))

/-- What the tokens of an invocation say. -/
theorem ofLine_of_labels {site : SourceLine} {arguments : List String} {isOptional : Bool}
    (hname : name ≠ "optional")
    (h : (TextMacro.directiveTokens site).map label =
      .word "runtextmacro" :: ((if isOptional then [.word "optional"] else []) ++
        (appliedLabels name (arguments.map literal) ++ behind))) :
    ofLine site = ⟨name, arguments, isOptional, site⟩ := by
  obtain ⟨keyword, others, htokens, hkeyword, hothers⟩ := labels_eq_cons.1 h
  rw [ofLine, htokens]
  simp only [dropKeyword_of_word hkeyword, if_true]
  cases isOptional with
  | true =>
    obtain ⟨optional, call, rfl, hoptional, hcall⟩ := labels_eq_cons.1 hothers
    simp only [dropKeyword_of_word hoptional, if_true, target_of_applied hcall]
  | false =>
    -- The name stands where the word could stand, and is not that word
    obtain ⟨named, opening, list, rest, rfl, hnamed, -⟩ := exists_of_applied hothers
    simp only [dropKeyword_of_word hnamed, if_neg hname, target_of_applied hothers]

end Invocation

/-! ### How the words of a directive are read -/

section

variable {tail : List Char} {arguments parameters : List String}

theorem isRead_parameters (h : ∀ parameter ∈ parameters, IsIdentifierText parameter) :
    ∀ item ∈ parameters.map Label.word, IsItem item :=
  List.forall_mem_map.2 fun parameter hmem _ htail => (h parameter hmem).isRead htail

theorem isRead_arguments (h : ∀ argument ∈ arguments, IsLiteralText argument) :
    ∀ item ∈ arguments.map Invocation.literal, IsItem item :=
  List.forall_mem_map.2 fun argument hmem tail _ => isRead_quoted (h argument hmem) tail

theorem isRead_written (hname : IsIdentifierText name)
    (harguments : ∀ argument ∈ arguments, IsLiteralText argument) (isOptional : Bool)
    (tail : List Char) :
    IsRead (Invocation.written isOptional name arguments)
      (.word "runtextmacro" :: ((if isOptional then [.word "optional"] else []) ++
        appliedLabels name (arguments.map Invocation.literal))) tail := by
  have hkeyword : ∀ keyword ∈ ["runtextmacro", "optional"], IsIdentifierText keyword := by
    decide +kernel
  have hcall := isRead_applied hname (isRead_arguments harguments) tail
  rw [List.map_map] at hcall
  refine (hkeyword "runtextmacro" (by simp)).isRead_spaced ?_
  cases isOptional with
  | true => exact (hkeyword "optional" (by simp)).isRead_spaced hcall
  | false => exact hcall

end

/-! ### Written lines -/

section

variable (frame : Directive.Frame) {arguments parameters : List String} {words : List Char}

theorem Invocation.feed_not_mem_written (hname : IsIdentifierText name)
    (harguments : ∀ argument ∈ arguments, IsLiteralText argument) (isOptional : Bool) :
    '\n' ∉ written isOptional name arguments := by
  have hcall : '\n' ∉ applied name (arguments.map quoted) :=
    feed_not_mem_applied hname (List.forall_mem_map.2 fun argument hmem =>
      feed_not_mem_quoted (harguments argument hmem))
  refine feed_not_mem_spaced (by decide) ?_
  cases isOptional with
  | true => exact feed_not_mem_spaced (by decide) hcall
  | false => exact hcall

/-- What is read from the line of an invocation. -/
theorem Invocation.ofLine_written {site : SourceLine} (hname : IsIdentifierText name)
    (hother : name ≠ "optional") (harguments : ∀ argument ∈ arguments, IsLiteralText argument)
    {isOptional : Bool}
    (hsite : site.text.toList = frame.line (written isOptional name arguments)) :
    Directive.ofLine? site = some .macroRun ∧
      ofLine site = ⟨name, arguments, isOptional, site⟩ := by
  constructor
  · rw [Directive.ofLine?, hsite]
    exact frame.ofChars?_line "runtextmacro" (by decide) (by decide) _
  · obtain ⟨column, hlabels⟩ := frame.labels_directiveTokens hsite
      (isRead_written hname harguments isOptional frame.tail)
    rw [List.cons_append, List.append_assoc] at hlabels
    exact ofLine_of_labels hother hlabels

theorem TextMacro.HeaderWrites.feed_not_mem (h : HeaderWrites name parameters words)
    (hname : IsIdentifierText name)
    (hparameters : ∀ parameter ∈ parameters, IsIdentifierText parameter) : '\n' ∉ words := by
  have hlist : ∀ parameter ∈ parameters, '\n' ∉ parameter.toList := fun parameter hmem =>
    (hparameters parameter hmem).feed_not_mem
  cases h with
  | parentheses => exact feed_not_mem_spaced (by decide) (feed_not_mem_applied hname hlist)
  | takes _ =>
    exact feed_not_mem_spaced (by decide) (feed_not_mem_spaced hname.feed_not_mem
      (feed_not_mem_spaced (by decide) (feed_not_mem_commaList hlist)))

/-- What is read from the header of a definition. -/
theorem TextMacro.HeaderWrites.signature?_eq {header : SourceLine}
    (h : HeaderWrites name parameters words) (hname : IsIdentifierText name)
    (hparameters : ∀ parameter ∈ parameters, IsIdentifierText parameter)
    (hheader : header.text.toList = frame.line words) :
    Directive.ofLine? header = some .macroStart ∧
      signature? header = some (name, parameters) := by
  have hdirective : ∀ rest, words = spaced "textmacro" rest →
      Directive.ofLine? header = some .macroStart := by
    rintro rest rfl
    rw [Directive.ofLine?, hheader]
    exact frame.ofChars?_line "textmacro" (by decide) (by decide) rest
  have hkeyword : ∀ keyword ∈ ["textmacro", "takes"], IsIdentifierText keyword := by
    decide +kernel
  have hitems := isRead_parameters hparameters
  cases h with
  | parentheses =>
    -- The list is read up to its closing parenthesis
    have hcall := isRead_applied hname hitems frame.tail
    rw [texts_word] at hcall
    obtain ⟨column, hlabels⟩ := frame.labels_directiveTokens hheader
      ((hkeyword "textmacro" (by simp)).isRead_spaced hcall)
    exact ⟨hdirective _ rfl, signature?_of_applied hlabels⟩
  | takes _ =>
    -- The list is read up to the end of the line
    have hlist := isRead_commaList hitems frame.endsIdentifier_tail
    rw [texts_word] at hlist
    obtain ⟨column, hlabels⟩ := frame.labels_directiveTokens hheader
      ((hkeyword "textmacro" (by simp)).isRead_spaced
        (hname.isRead_spaced ((hkeyword "takes" (by simp)).isRead_spaced hlist)))
    exact ⟨hdirective _ rfl, signature?_of_takes hlabels (frame.kind_tail _ column)⟩

end

/-- A header registers its macro, wherever it stands. -/
theorem MacroTable.mem_macros_extract {header : SourceLine} {parameters : List String}
    (hheader : Directive.ofLine? header = some .macroStart)
    (hsignature : TextMacro.signature? header = some (name, parameters))
    (source : Nat) (before rest : List SourceLine) :
    ⟨name, parameters, bodyOf rest, header.region.withStop (stopOf header rest)⟩ ∈
      (extract source (before ++ header :: rest)).table.macros := by
  rw [extract, macros_extractFrom, definitionsIn, List.mem_filterMap]
  refine ⟨header :: rest, (List.mem_tails ..).2 (List.suffix_append ..), ?_⟩
  rw [definitionAt?, if_pos (isHeader_iff.2 hheader), definition?, hsignature]
  rfl

/-- Whatever stands around a directive for text macros on its line, it says what was written: the
line keeps its characters when comments are blanked, an invocation gives its name, its arguments and
whether it is optional, and both forms of a header register the macro with its parameters. -/
theorem decodes_macroDirectives (frame : Directive.Frame) {name : String}
    {arguments parameters : List String} (hname : IsIdentifierText name)
    (hother : name ≠ "optional") (harguments : ∀ argument ∈ arguments, IsLiteralText argument)
    (hparameters : ∀ parameter ∈ parameters, IsIdentifierText parameter) :
    (∀ isOptional, frame.Survives (Invocation.written isOptional name arguments) ∧
      ∀ site : SourceLine,
        site.text.toList = frame.line (Invocation.written isOptional name arguments) →
          Directive.ofLine? site = some .macroRun ∧
          Invocation.ofLine site = ⟨name, arguments, isOptional, site⟩) ∧
    ∀ words, TextMacro.HeaderWrites name parameters words → frame.Survives words ∧
      ∀ header : SourceLine, header.text.toList = frame.line words →
        Directive.ofLine? header = some .macroStart ∧
        ∀ source before rest,
          ⟨name, parameters, MacroTable.bodyOf rest,
              header.region.withStop (MacroTable.stopOf header rest)⟩ ∈
            (MacroTable.extract source (before ++ header :: rest)).table.macros := by
  constructor
  · intro isOptional
    have hfeed := Invocation.feed_not_mem_written hname harguments isOptional
    exact ⟨frame.survives hfeed, fun _ => Invocation.ofLine_written frame hname hother harguments⟩
  · intro words hwords
    refine ⟨frame.survives (hwords.feed_not_mem hname hparameters), fun header hheader => ?_⟩
    obtain ⟨hdirective, hsignature⟩ := hwords.signature?_eq frame hname hparameters hheader
    exact ⟨hdirective, MacroTable.mem_macros_extract hdirective hsignature⟩

/-- A tab in front of the marker, and a comment behind the words. -/
def Directive.commentedFrame : Directive.Frame where
  indent := ['\t']
  gap := [' ']
  comment? := some " run".toList
  ending := .feed
  isBlank_indent := List.forall_mem_singleton.2 (by decide)
  isBlank_gap := List.forall_mem_singleton.2 (by decide)
  isOneLine_comment := by simp [isLineBreak]

/-- Arguments that look like the end of a list and like a directive. -/
theorem decodes_macroDirectives_delimiters :
    (IsIdentifierText "Make" ∧ "Make" ≠ "optional" ∧
      (∀ argument ∈ ["a, b)", "//! $c$"], IsLiteralText argument) ∧
      ∀ parameter ∈ ["NAME", "$T$"], IsIdentifierText parameter) ∧
    (∀ site : SourceLine, site.text =
        "\t//! runtextmacro optional Make(\"a, b)\", \"//! $c$\") // run\n" →
      Directive.ofLine? site = some .macroRun ∧
      Invocation.ofLine site = ⟨"Make", ["a, b)", "//! $c$"], true, site⟩) ∧
    ∀ header : SourceLine, header.text = "\t//! textmacro Make takes NAME, $T$ // run\n" →
      Directive.ofLine? header = some .macroStart ∧
      ⟨"Make", ["NAME", "$T$"], [], header.region.withStop header.region.stop⟩ ∈
        (MacroTable.extract 0 [header]).table.macros := by
  have hname : IsIdentifierText "Make" := by decide +kernel
  have harguments : ∀ argument ∈ ["a, b)", "//! $c$"], IsLiteralText argument := by decide +kernel
  have hparameters : ∀ parameter ∈ ["NAME", "$T$"], IsIdentifierText parameter := by decide +kernel
  obtain ⟨hruns, hheaders⟩ := decodes_macroDirectives Directive.commentedFrame hname (by decide)
    harguments hparameters
  refine ⟨⟨hname, by decide, harguments, hparameters⟩, fun site hsite => ?_,
    fun header hheader => ?_⟩
  · refine (hruns true).2 site ?_
    rw [hsite]
    decide +kernel
  · have htakes := hheaders _ (.takes (by decide))
    obtain ⟨hdirective, hmem⟩ := htakes.2 header (by rw [hheader]; decide +kernel)
    exact ⟨hdirective, hmem 0 [] []⟩

end JassOutline
