import JassOutline.Declaration.Header
import JassOutline.Proofs.Token.Label
import JassOutline.TextMacro

/-!
# Lists with commas

Parameters, names and the items of directives stand in lists with commas. Each kind of list has a
reader of its own, which goes from token to token and keeps in mind what it waits for. What a reader
finds depends on the segments between the commas alone: the first tokens of a segment that count
are read, the others are read over. That holds of every token list, so a segment may be empty, lack
a name or have anything behind it.

## Key results

- `Parameter.listFrom_eq`: the first two words of each segment, up to the word `nothing`
- `listedNames_eq`, `TextMacro.listItems_eq`: the first token of each segment that counts
- `commaLists_read_by_segment`: all three readers
-/

namespace JassOutline

open Token

variable {token : Token} {rest : List Token} {accept : Token → Bool}

/-! ### Segments -/

/-- What stands before, between and behind the commas. -/
def segments (tokens : List Token) : List (List Token) :=
  tokens.splitOnP (·.isOperator ",")

theorem exists_segments (tokens : List Token) :
    ∃ first more, segments tokens = first :: more :=
  List.exists_cons_of_ne_nil (List.splitOnP_ne_nil _ tokens)

theorem segments_comma (h : token.isOperator "," = true) (rest : List Token) :
    segments (token :: rest) = [] :: segments rest := by
  rw [segments, List.splitOnP_cons_eq_if_modifyHead, if_pos h, segments]

/-- A token that is no comma belongs to the first segment. -/
theorem segments_other (h : token.isOperator "," = false) {first : List Token}
    {more : List (List Token)} (hrest : segments rest = first :: more) :
    segments (token :: rest) = (token :: first) :: more := by
  rw [segments, List.splitOnP_cons_eq_if_modifyHead, if_neg (Bool.eq_false_iff.1 h),
    ← segments, hrest, List.modifyHead_cons]

theorem Token.isString_of_isOperator {text : String} (h : token.isOperator text = true) :
    token.isString = false := by
  rw [isOperator_eq, beq_iff_eq] at h
  rw [isString, show token.kind = .operator from congrArg Label.kind h]
  rfl

/-! ### Names and items -/

/-- The text of the first accepted token of each segment that has one. -/
def firstTexts (accept : Token → Bool) (segments : List (List Token)) : List String :=
  segments.filterMap fun segment => (segment.find? accept).map text

theorem firstTexts_cons (accept : Token → Bool) (token : Token) (first : List Token)
    (more : List (List Token)) :
    firstTexts accept ((token :: first) :: more) =
      if accept token then token.text :: firstTexts accept more
      else firstTexts accept (first :: more) := by
  rw [firstTexts, List.filterMap_cons, List.find?_cons]
  cases accept token <;> simp [firstTexts, List.filterMap_cons]

/-- The first accepted token of a list and those behind its commas. The flag tells whether an item
is expected next. -/
def itemsFrom (accept : Token → Bool) : Bool → List Token → List String
  | _, [] => []
  | true, token :: rest =>
    if accept token then token.text :: itemsFrom accept false rest
    else itemsFrom accept true rest
  | false, token :: rest => itemsFrom accept (token.isOperator ",") rest

/-- Where no item is expected, that of the first segment is read already. -/
theorem itemsFrom_eq (haccept : ∀ token, token.isOperator "," = true → accept token = false)
    (expecting : Bool) (tokens : List Token) :
    itemsFrom accept expecting tokens =
      firstTexts accept (if expecting then segments tokens else (segments tokens).tail) := by
  induction tokens generalizing expecting with
  | nil => cases expecting <;> rfl
  | cons token rest ih =>
    -- Between two commas only the flag changes: it tells whether the first item of the segment is
    -- still to come
    cases hcomma : token.isOperator "," with
    | true =>
      -- A comma is no item, and behind it one is expected
      rw [segments_comma hcomma]
      have hempty : firstTexts accept ([] :: segments rest) = firstTexts accept (segments rest) :=
        rfl
      cases expecting <;> simp [itemsFrom, hcomma, haccept token hcomma, ih, hempty]
    | false =>
      obtain ⟨first, more, hrest⟩ := exists_segments rest
      rw [segments_other hcomma hrest]
      cases expecting with
      | true => simp [itemsFrom, firstTexts_cons, ih, hrest]
      | false => simp [itemsFrom, hcomma, ih, hrest]

/-- Whether the token is a name in a list. The word `optional` is none. -/
def isListedName (token : Token) : Bool :=
  token.isIdentifier && token.text != "optional"

theorem listedNames_eq_itemsFrom (expecting : Bool) (tokens : List Token) :
    listedNames expecting tokens = itemsFrom isListedName expecting tokens := by
  fun_induction listedNames expecting tokens with
  | case1 => rw [itemsFrom]
  | case2 token rest hoptional ih =>
    -- The word `optional` is passed over, and a name is still expected
    have hname : isListedName token = false := by
      simp_all [isListedName, isKeyword]
    rw [itemsFrom, hname, if_neg Bool.false_ne_true, ih]
  | case3 token rest hoptional hword ih =>
    -- The first name of the segment
    have hname : isListedName token = true := by
      simp_all [isListedName, isKeyword, isIdentifier]
    rw [itemsFrom, if_pos hname, ih]
  | case4 token rest _ hword ih =>
    -- What is no word is passed over as well
    have hname : isListedName token = false := by
      simp_all [isListedName]
    rw [itemsFrom, hname, if_neg Bool.false_ne_true, ih]
  | case5 token rest ih => rw [itemsFrom, ih]

/-- A list of names holds the first name of each segment. -/
theorem listedNames_eq (tokens : List Token) :
    listedNames true tokens = firstTexts isListedName (segments tokens) := by
  rw [listedNames_eq_itemsFrom, itemsFrom_eq, if_pos rfl]
  intro token hcomma
  rw [isListedName, isIdentifier_of_isOperator hcomma, Bool.false_and]

namespace TextMacro

theorem listItems_eq_itemsFrom (accept : Token → Bool) (expecting : Bool) (tokens : List Token) :
    listItems accept expecting tokens =
      itemsFrom accept expecting (tokens.takeWhile (!·.isOperator ")")) := by
  fun_induction listItems accept expecting tokens with
  | case1 => simp [itemsFrom]
  | case2 expecting token rest hclosing => simp [itemsFrom, hclosing]
  | case3 token rest hclosing haccept ih => simp [itemsFrom, hclosing, haccept, ih]
  | case4 token rest hclosing haccept ih => simp [itemsFrom, hclosing, haccept, ih]
  | case5 expecting token rest hclosing hexpecting ih =>
    simp [itemsFrom, hclosing, hexpecting, ih]

/-- A list in a directive holds the first item of each segment up to the closing parenthesis. -/
theorem listItems_eq (haccept : ∀ token, token.isOperator "," = true → accept token = false)
    (tokens : List Token) :
    listItems accept true tokens =
      firstTexts accept (segments (tokens.takeWhile (!·.isOperator ")"))) := by
  rw [listItems_eq_itemsFrom, itemsFrom_eq haccept, if_pos rfl]

end TextMacro

/-! ### Parameters -/

namespace Parameter

/-- The identifiers of each segment. -/
def wordsBySegment (tokens : List Token) : List (List Token) :=
  (segments tokens).map (·.filter Token.isIdentifier)

theorem wordsBySegment_comma (h : token.isOperator "," = true) (rest : List Token) :
    wordsBySegment (token :: rest) = [] :: wordsBySegment rest := by
  rw [wordsBySegment, segments_comma h, List.map_cons, List.filter_nil, wordsBySegment]

theorem exists_wordsBySegment (tokens : List Token) :
    ∃ first more, wordsBySegment tokens = first :: more := by
  obtain ⟨first, more, h⟩ := exists_segments tokens
  exact ⟨_, _, by rw [wordsBySegment, h, List.map_cons]⟩

theorem wordsBySegment_other (h : token.isOperator "," = false) {first : List Token}
    {more : List (List Token)} (hrest : wordsBySegment rest = first :: more) :
    wordsBySegment (token :: rest) =
      (if token.isIdentifier then token :: first else first) :: more := by
  obtain ⟨segment, others, hsegments⟩ := exists_segments rest
  rw [wordsBySegment, hsegments, List.map_cons] at hrest
  obtain ⟨rfl, rfl⟩ := List.cons.inj hrest
  rw [wordsBySegment, segments_other h hsegments, List.map_cons, List.filter_cons]

/-- The parameter with the given type and the words behind it. The first of these is its name, and
its region reaches from the type to the name if there is one. -/
def ofTypeAndWords (type : Token) (words : List Token) : Parameter :=
  ⟨type.text, words.head?.map Token.text, ⟨type.start, (words.headD type).stop⟩⟩

/-- The parameter that the words of a segment declare. -/
def ofWords? : List Token → Option Parameter
  | [] => none
  | type :: words => some (ofTypeAndWords type words)

/-- Whether the words end the list: the first one is `nothing`. -/
def endList (words : List Token) : Bool :=
  words.head?.any (·.text == "nothing")

/-- The parameters of the segments in front of the first one that ends the list. -/
def ofSegments (words : List (List Token)) : List Parameter :=
  (words.takeWhile (!endList ·)).filterMap ofWords?

theorem ofSegments_nil_cons (more : List (List Token)) :
    ofSegments ([] :: more) = ofSegments more :=
  rfl

theorem ofSegments_cons_cons (type : Token) (words : List Token) (more : List (List Token)) :
    ofSegments ((type :: words) :: more) =
      if type.text = "nothing" then [] else ofTypeAndWords type words :: ofSegments more := by
  rw [ofSegments, List.takeWhile_cons]
  by_cases hnothing : type.text = "nothing" <;> simp [ofSegments, endList, ofWords?, hnothing]

/-- Behind a type, the first segment has its name still to come. Behind the name, nothing of it
counts. -/
theorem list_eq_ofSegments (tokens : List Token) :
    listFrom tokens = ofSegments (wordsBySegment tokens) ∧
      (∀ type, listFromName type tokens =
        ofTypeAndWords type ((wordsBySegment tokens).headD []) ::
          ofSegments (wordsBySegment tokens).tail) ∧
      listFromComma tokens = ofSegments (wordsBySegment tokens).tail := by
  induction tokens with
  | nil =>
    exact ⟨by rw [listFrom]; rfl, fun type => by rw [listFromName]; rfl, by rw [listFromComma]; rfl⟩
  | cons token rest ih =>
    obtain ⟨hlist, hname, hcomma⟩ := ih
    cases hsign : token.isOperator "," with
    | true =>
      -- Behind a comma a type is expected, whatever was expected in front of it
      have hword := isIdentifier_of_isOperator hsign
      have hnothing : token.isKeyword "nothing" = false := by
        rw [isKeyword, ← isIdentifier, hword, Bool.false_and]
      rw [wordsBySegment_comma hsign]
      refine ⟨?_, fun type => ?_, ?_⟩
      · simp [listFrom, hword, hnothing, hlist, ofSegments_nil_cons]
      · simp [listFromName, hword, hsign, hlist, ofType, ofTypeAndWords, Token.region]
      · simp [listFromComma, hsign, hlist]
    | false =>
      -- The token stands in the first segment, where only a word counts
      obtain ⟨first, more, hrest⟩ := exists_wordsBySegment rest
      rw [wordsBySegment_other hsign hrest]
      rw [hrest] at hlist hname hcomma
      have hkeyword : token.isKeyword "nothing" =
          (token.isIdentifier && token.text == "nothing") := rfl
      refine ⟨?_, fun type => ?_, by simp [listFromComma, hsign, hcomma]⟩
      · by_cases hword : token.isIdentifier = true
        · by_cases hnothing : token.text = "nothing" <;>
            simp [listFrom, hkeyword, hword, hnothing, hname, ofSegments_cons_cons]
        · simp [listFrom, hkeyword, hword, hlist]
      · by_cases hword : token.isIdentifier = true
        · simp [listFromName, hword, hcomma, ofTypeAndName, ofTypeAndWords]
        · simp [listFromName, hword, hsign, hname]

/-- A list of parameters holds one for each segment with a word, up to the first segment that starts
with `nothing`. -/
theorem listFrom_eq (tokens : List Token) :
    listFrom tokens = ofSegments (wordsBySegment tokens) :=
  (list_eq_ofSegments tokens).1

end Parameter

/-! ### All readers -/

/-- On every token list, each reader of lists finds what the segments between the commas say. Of a
parameter the first word of the segment is the type and the second one the name, and a segment that
starts with `nothing` ends the list. Of a list of names each segment gives its first word other than
`optional`. Of a list in a directive each segment gives its first accepted token, where a closing
parenthesis ends the list. The tests for words and for strings both accept no comma. -/
theorem commaLists_read_by_segment (tokens : List Token) :
    Parameter.listFrom tokens = Parameter.ofSegments (Parameter.wordsBySegment tokens) ∧
      listedNames true tokens = firstTexts isListedName (segments tokens) ∧
      ∀ accept : Token → Bool, (∀ token, token.isOperator "," = true → accept token = false) →
        TextMacro.listItems accept true tokens =
          firstTexts accept (segments (tokens.takeWhile (!·.isOperator ")"))) :=
  ⟨Parameter.listFrom_eq tokens, listedNames_eq tokens,
    fun _ haccept => TextMacro.listItems_eq haccept tokens⟩

/-- A list with empty segments, literals in the place of words, a type without a name, words behind
a name, a segment that ends the parameters and a parenthesis. -/
def crookedList : List Token :=
  Token.tokenize 0 ", 5 integer \"s\" a b, optional real, optional , \"t\" nothing x, c ) d".toList

theorem commaLists_read_by_segment_crookedList :
    (Parameter.listFrom crookedList).map (fun p => (p.type, p.name)) =
        [("integer", some "a"), ("optional", some "real"), ("optional", none)] ∧
      listedNames true crookedList = ["integer", "real", "nothing", "c"] ∧
      TextMacro.listItems Token.isIdentifier true crookedList =
        ["integer", "optional", "optional", "nothing", "c"] ∧
      TextMacro.listItems Token.isString true crookedList = ["\"s\"", "\"t\""] := by
  obtain ⟨hparameters, hnames, hitems⟩ := commaLists_read_by_segment crookedList
  rw [hparameters, hnames, hitems Token.isIdentifier fun _ => Token.isIdentifier_of_isOperator,
    hitems Token.isString fun _ => Token.isString_of_isOperator]
  decide +kernel

end JassOutline
