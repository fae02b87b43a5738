import JassOutline.Declaration.Doc
import Mathlib.Data.List.TakeWhile

/-!
# Tags of documentation

A comment above a declaration says something by its first word. The reader looks for a tag at the
start of the text, and does not ask whether the word ends there: a longer word that begins with a
tag is taken for the tag, and what goes on behind it for the name of a parameter. Every other
comment is read word by word, in order, and what was read can be written as comments again.

## Key results

- `Text.isTrimmed_trim`, `Text.trim_eq`: trimming takes the blanks around a text, and no more
- `DocLine.ofComment_eq_iff`: the comments in which tags are whole words
- `DocLine.ofComment_chars`: what a comment says, written as a comment
- `Doc.ofComments_eq`: the documentation, comment by comment
-/

namespace JassOutline

/-! ### Trimmed texts -/

namespace Text

variable {text front back tag : List Char}

/-- No blank stands at the start or at the end of the text. -/
def IsTrimmed (text : List Char) : Prop :=
  (∀ c ∈ text.head?, isBlank c = false) ∧ ∀ c ∈ text.getLast?, isBlank c = false

theorem dropWhile_eq_self {p : Char → Bool} (h : ∀ c ∈ text.head?, p c = false) :
    text.dropWhile p = text := by
  cases text with
  | nil => rfl
  | cons c rest => exact List.dropWhile_cons_of_neg (by simp [h c rfl])

theorem not_head_dropWhile {p : Char → Bool} : ∀ c ∈ (text.dropWhile p).head?, p c = false := by
  intro c hc
  have hnot := List.head?_dropWhile_not p text
  rw [Option.mem_def.1 hc] at hnot
  simpa using hnot

theorem trimEnd_append (h : ∀ c ∈ back, isBlank c = true) (text : List Char) :
    trimEnd (text ++ back) = trimEnd text := by
  rw [trimEnd, dropEndWhile, List.reverse_append,
    List.dropWhile_append_of_pos fun c hc => h c (List.mem_reverse.1 hc)]
  rfl

theorem IsTrimmed.trimEnd_eq (h : IsTrimmed text) : trimEnd text = text := by
  rw [trimEnd, dropEndWhile, dropWhile_eq_self (by simpa using h.2), List.reverse_reverse]

/-- Behind the blanks at its start, a text is what is left when it is trimmed, and blanks. -/
theorem exists_trimStart (text : List Char) :
    ∃ back, trimStart text = trim text ++ back ∧ ∀ c ∈ back, isBlank c = true := by
  refine ⟨((trimStart text).reverse.takeWhile isBlank).reverse, ?_, fun c hc => ?_⟩
  · rw [trim, trimEnd, dropEndWhile, ← List.reverse_append, List.takeWhile_append_dropWhile,
      List.reverse_reverse]
  · exact List.mem_takeWhile_imp (List.mem_reverse.1 hc)

theorem isTrimmed_trim (text : List Char) : IsTrimmed (trim text) := by
  refine ⟨fun c hc => ?_, fun c hc => ?_⟩
  · -- The first character is the one at which the blanks in front end
    obtain ⟨back, hback, -⟩ := exists_trimStart text
    have hfirst : c ∈ (trimStart text).head? := by
      rw [hback, List.head?_append, Option.mem_def.1 hc]
      rfl
    exact not_head_dropWhile c hfirst
  · rw [trim, trimEnd, dropEndWhile, List.getLast?_reverse] at hc
    exact not_head_dropWhile c hc

/-- Blanks around a text without blanks at its ends are all that is trimmed. -/
theorem trim_eq (hfront : ∀ c ∈ front, isBlank c = true) (hback : ∀ c ∈ back, isBlank c = true)
    (h : IsTrimmed text) : trim (front ++ text ++ back) = text := by
  rw [trim, List.append_assoc, trimStart, List.dropWhile_append_of_pos hfront]
  cases text with
  | nil =>
    rw [List.nil_append, List.dropWhile_eq_nil_iff.2 hback]
    rfl
  | cons c rest =>
    have hfirst : isBlank c = false := h.1 c rfl
    rw [List.cons_append, List.dropWhile_cons_of_neg (by simp [hfirst]), ← List.cons_append,
      trimEnd_append hback, h.trimEnd_eq]

theorem IsTrimmed.trim_eq (h : IsTrimmed text) : trim text = text := by
  simpa using @Text.trim_eq text [] [] (by simp) (by simp) h

/-- A text is what is left when it is trimmed, with blanks around. -/
theorem exists_trim (text : List Char) :
    ∃ front back, text = front ++ trim text ++ back ∧ (∀ c ∈ front, isBlank c = true) ∧
      ∀ c ∈ back, isBlank c = true := by
  obtain ⟨back, hback, hblank⟩ := exists_trimStart text
  refine ⟨text.takeWhile isBlank, back, ?_, fun c => List.mem_takeWhile_imp, hblank⟩
  rw [List.append_assoc, ← hback, trimStart, List.takeWhile_append_dropWhile]

theorem isTrimmed_of_not_blank (h : ∀ c ∈ text, isBlank c = false) : IsTrimmed text :=
  ⟨fun c hc => h c (List.mem_of_mem_head? hc), fun c hc => h c (List.mem_of_mem_getLast? hc)⟩

/-- What stands between two texts does not matter to the ends. -/
theorem IsTrimmed.append (hfront : IsTrimmed front) (hback : IsTrimmed back) (hfront' : front ≠ [])
    (hback' : back ≠ []) (between : List Char) : IsTrimmed (front ++ between ++ back) := by
  refine ⟨fun c hc => hfront.1 c ?_, fun c hc => hback.2 c ?_⟩
  · rwa [List.append_assoc, List.head?_append, List.head?_eq_some_head hfront', Option.some_or,
      ← List.head?_eq_some_head hfront'] at hc
  · rwa [List.getLast?_append, List.getLast?_eq_some_getLast hback', Option.some_or,
      ← List.getLast?_eq_some_getLast hback'] at hc

/-! ### First words -/

/-- The first word of a text. -/
def firstWord (text : List Char) : List Char :=
  text.takeWhile (!isBlank ·)

/-- The text without its first word. -/
def behindFirstWord (text : List Char) : List Char :=
  text.dropWhile (!isBlank ·)

theorem firstWord_append (htag : ∀ c ∈ tag, isBlank c = false) (rest : List Char) :
    firstWord (tag ++ rest) = tag ++ firstWord rest :=
  List.takeWhile_append_of_pos fun c hc => by simp [htag c hc]

theorem behindFirstWord_append (htag : ∀ c ∈ tag, isBlank c = false) (rest : List Char) :
    behindFirstWord (tag ++ rest) = behindFirstWord rest :=
  List.dropWhile_append_of_pos fun c hc => by simp [htag c hc]

theorem behindFirstWord_eq_self (h : firstWord text = []) : behindFirstWord text = text := by
  calc
    behindFirstWord text = firstWord text ++ behindFirstWord text := by rw [h, List.nil_append]
    _ = text := List.takeWhile_append_dropWhile

/-- A text starts with a word if its first word does. -/
theorem startsWith_iff_firstWord (htag : ∀ c ∈ tag, isBlank c = false) :
    startsWith tag text = true ↔ tag <+: firstWord text := by
  rw [startsWith_iff]
  constructor
  · rintro ⟨rest, rfl⟩
    rw [firstWord_append htag]
    exact List.prefix_append ..
  · intro h
    obtain ⟨rest, hrest⟩ := h.trans (List.takeWhile_prefix _)
    exact ⟨rest, hrest.symm⟩

theorem dropLeading?_eq_none {opening : List Char} (h : startsWith opening text = false) :
    dropLeading? opening text = none := by
  rw [startsWith] at h
  simpa using h

end Text

namespace DocLine

open Text

variable {comment text tag more : List Char}

/-- The word for the description of a parameter. -/
def parameterTag : List Char := ['@', 'p', 'a', 'r', 'a', 'm']

/-- The word for what is out of date. -/
def deprecatedTag : List Char := ['@', 'd', 'e', 'p', 'r', 'e', 'c', 'a', 't', 'e', 'd']

theorem toList_tags : "@param".toList = parameterTag ∧ "@deprecated".toList = deprecatedTag := by
  decide +kernel

/-- The parameter that the first word of the text names and the rest of it describes. -/
def ofDescription (text : List Char) : DocLine :=
  if text.isEmpty then .nothing
  else .parameter ⟨String.ofList (firstWord text), String.ofList (trim (behindFirstWord text))⟩

/-- What a text says if tags are whole words. -/
def ofFirstWord (text : List Char) : DocLine :=
  if firstWord text = parameterTag then ofDescription (trimStart (behindFirstWord text))
  else if firstWord text = deprecatedTag then .deprecated
  else if text.isEmpty then .nothing
  else .text (String.ofList text)

/-- The first word of the text begins with the tag and goes on. -/
def RunsOn (tag text : List Char) : Prop :=
  ∃ c more, firstWord text = tag ++ c :: more

theorem runsOn_iff : RunsOn tag text ↔ tag <+: firstWord text ∧ firstWord text ≠ tag := by
  constructor
  · rintro ⟨c, more, h⟩
    rw [h]
    exact ⟨List.prefix_append .., by simp⟩
  · rintro ⟨⟨more, hmore⟩, hne⟩
    cases more with
    | nil => exact absurd (by simpa using hmore.symm) hne
    | cons c more => exact ⟨c, more, hmore.symm⟩

instance : Decidable (RunsOn tag text) := decidable_of_iff _ runsOn_iff.symm

theorem isBlank_of_mem_parameterTag : ∀ c ∈ parameterTag, isBlank c = false := by
  simpa using List.all_eq_true.1 (show parameterTag.all (!isBlank ·) = true from rfl)

theorem isBlank_of_mem_deprecatedTag : ∀ c ∈ deprecatedTag, isBlank c = false := by
  simpa using List.all_eq_true.1 (show deprecatedTag.all (!isBlank ·) = true from rfl)

theorem ofComment_of_parameterTag {rest : List Char}
    (h : content comment = parameterTag ++ rest) :
    ofComment comment = ofDescription (trimStart rest) := by
  have hrest : dropLeading? parameterTag (content comment) = some rest := by
    rw [h, dropLeading?_append]
  simp only [ofComment, toList_tags, hrest, ofParameterTag, ofDescription, firstWord,
    behindFirstWord]

theorem ofComment_of_other (h : startsWith parameterTag (content comment) = false) :
    ofComment comment =
      if startsWith deprecatedTag (content comment) then .deprecated
      else if (content comment).isEmpty then .nothing
      else .text (String.ofList (content comment)) := by
  have hnone := dropLeading?_eq_none h
  simp only [ofComment, toList_tags, hnone]

/-- A word that runs on behind the tag for parameters gives a name. -/
theorem ofComment_of_parameterTag_append {c : Char}
    (h : firstWord (content comment) = parameterTag ++ c :: more) :
    ofComment comment =
      .parameter ⟨String.ofList (c :: more),
        String.ofList (trim (behindFirstWord (content comment)))⟩ := by
  obtain ⟨rest, hrest⟩ := startsWith_iff.1
    ((startsWith_iff_firstWord isBlank_of_mem_parameterTag).2 ⟨c :: more, h.symm⟩)
  rw [hrest, firstWord_append isBlank_of_mem_parameterTag, List.append_cancel_left_eq] at h
  -- The word goes on directly behind the tag
  have hfirst : ∀ c ∈ rest.head?, isBlank c = false := by
    cases rest with
    | nil => simp
    | cons first rest =>
      intro c hc
      obtain rfl : first = c := by simpa using hc
      refine Bool.eq_false_iff.2 fun hblank => ?_
      rw [firstWord, List.takeWhile_cons_of_neg (by simp [hblank])] at h
      cases h
  rw [ofComment_of_parameterTag hrest, hrest, behindFirstWord_append isBlank_of_mem_parameterTag,
    trimStart, dropWhile_eq_self hfirst, ofDescription, h]
  cases rest with
  | nil => cases h
  | cons first rest => rfl

/-- A word that runs on behind the tag for what is out of date is the tag. -/
theorem ofComment_of_deprecatedTag_append
    (h : firstWord (content comment) = deprecatedTag ++ more) :
    ofComment comment = .deprecated := by
  have hdeprecated : startsWith deprecatedTag (content comment) = true :=
    (startsWith_iff_firstWord isBlank_of_mem_deprecatedTag).2 ⟨more, h.symm⟩
  obtain ⟨rest, hrest⟩ := startsWith_iff.1 hdeprecated
  have hparameter : startsWith parameterTag (content comment) = false := by
    rw [hrest]
    rfl
  rw [ofComment_of_other hparameter, hdeprecated, if_pos rfl]

theorem RunsOn.firstWord_ne {other : List Char} (h : RunsOn tag text)
    (hother : tag <+: other → other = tag) : firstWord text ≠ other := by
  rintro rfl
  obtain ⟨c, more, hword⟩ := h
  have heq := hother ⟨c :: more, hword.symm⟩
  rw [hword] at heq
  simp at heq

/-- With whole words for tags, a longer word makes the line free text. -/
theorem ofFirstWord_of_runsOn (h : RunsOn tag text)
    (htag : tag = parameterTag ∨ tag = deprecatedTag) :
    ofFirstWord text = .text (String.ofList text) := by
  have hempty : text.isEmpty = false := by
    obtain ⟨c, more, hword⟩ := h
    cases text with
    | nil => simp [firstWord] at hword
    | cons => rfl
  have hparameter : firstWord text ≠ parameterTag :=
    h.firstWord_ne (by rcases htag with rfl | rfl <;> decide)
  have hdeprecated : firstWord text ≠ deprecatedTag :=
    h.firstWord_ne (by rcases htag with rfl | rfl <;> decide)
  rw [ofFirstWord, if_neg hparameter, if_neg hdeprecated, hempty, if_neg Bool.false_ne_true]

/-- A tag that does not run on is the first word, or the text does not start with it. -/
theorem startsWith_of_not_runsOn (htag : ∀ c ∈ tag, isBlank c = false) (h : ¬RunsOn tag text) :
    startsWith tag text = true ↔ firstWord text = tag := by
  rw [startsWith_iff_firstWord htag]
  constructor
  · intro hstarts
    by_contra hne
    exact h (runsOn_iff.2 ⟨hstarts, hne⟩)
  · intro hword
    exact ⟨[], by rw [hword, List.append_nil]⟩

theorem ofComment_of_not_runsOn (hparameter : ¬RunsOn parameterTag (content comment))
    (hdeprecated : ¬RunsOn deprecatedTag (content comment)) :
    ofComment comment = ofFirstWord (content comment) := by
  by_cases hword : firstWord (content comment) = parameterTag
  · obtain ⟨rest, hrest⟩ := startsWith_iff.1
      ((startsWith_of_not_runsOn isBlank_of_mem_parameterTag hparameter).2 hword)
    -- The tag is the whole word, so that a blank or nothing follows
    rw [ofComment_of_parameterTag hrest, ofFirstWord, if_pos hword]
    rw [hrest, firstWord_append isBlank_of_mem_parameterTag, List.append_right_eq_self] at hword
    rw [hrest, behindFirstWord_append isBlank_of_mem_parameterTag, behindFirstWord_eq_self hword]
  · have hother : startsWith parameterTag (content comment) = false :=
      Bool.eq_false_iff.2 fun hstarts =>
        hword ((startsWith_of_not_runsOn isBlank_of_mem_parameterTag hparameter).1 hstarts)
    rw [ofComment_of_other hother, ofFirstWord, if_neg hword]
    simp only [startsWith_of_not_runsOn isBlank_of_mem_deprecatedTag hdeprecated]

/-- A comment says what its first word says, unless that begins with a tag and goes on. -/
theorem ofComment_eq_iff :
    ofComment comment = ofFirstWord (content comment) ↔
      ¬RunsOn parameterTag (content comment) ∧ ¬RunsOn deprecatedTag (content comment) := by
  constructor
  · intro h
    refine ⟨fun hruns => ?_, fun hruns => ?_⟩
    · rw [ofFirstWord_of_runsOn hruns (.inl rfl)] at h
      obtain ⟨c, more, hword⟩ := hruns
      rw [ofComment_of_parameterTag_append hword] at h
      cases h
    · rw [ofFirstWord_of_runsOn hruns (.inr rfl)] at h
      obtain ⟨c, more, hword⟩ := hruns
      rw [ofComment_of_deprecatedTag_append hword] at h
      cases h
  · exact fun h => ofComment_of_not_runsOn h.1 h.2

/-! ### Writing what a comment says -/

/-- The comment that says the line. -/
def chars : DocLine → List Char
  | .nothing => ['/', '/']
  | .text line => '/' :: '/' :: ' ' :: line.toList
  | .parameter doc =>
    '/' :: '/' :: ' ' ::
      (parameterTag ++ ' ' :: (doc.name.toList ++ ' ' :: doc.description.toList))
  | .deprecated => '/' :: '/' :: ' ' :: deprecatedTag

/-- Whether a comment can say the line. -/
def IsWritable : DocLine → Prop
  | .nothing | .deprecated => True
  | .text line =>
    line.toList ≠ [] ∧ IsTrimmed line.toList ∧ startsWith parameterTag line.toList = false ∧
      startsWith deprecatedTag line.toList = false
  | .parameter doc =>
    doc.name.toList ≠ [] ∧ (∀ c ∈ doc.name.toList, isBlank c = false) ∧
      IsTrimmed doc.description.toList

theorem isTrimmed_content (comment : List Char) : IsTrimmed (content comment) :=
  isTrimmed_trim _

theorem isWritable_ofDescription (text : List Char) (h : ∀ c ∈ text.head?, isBlank c = false) :
    (ofDescription text).IsWritable := by
  unfold ofDescription
  cases text with
  | nil => trivial
  | cons first rest =>
    have hfirst : isBlank first = false := h first rfl
    refine ⟨?_, ?_, ?_⟩
    · simp [firstWord, hfirst]
    · intro c hc
      have hword : c ∈ (first :: rest).takeWhile (!isBlank ·) := by simpa [firstWord] using hc
      simpa using List.mem_takeWhile_imp hword
    · simpa using isTrimmed_trim _

/-- Whatever a comment says can be written. -/
theorem isWritable_ofComment (comment : List Char) : (ofComment comment).IsWritable := by
  by_cases hparameter : startsWith parameterTag (content comment) = true
  · obtain ⟨rest, hrest⟩ := startsWith_iff.1 hparameter
    rw [ofComment_of_parameterTag hrest]
    exact isWritable_ofDescription _ not_head_dropWhile
  · rw [Bool.not_eq_true] at hparameter
    rw [ofComment_of_other hparameter]
    split
    · trivial
    · next hdeprecated =>
      split
      · trivial
      · next hempty =>
        refine ⟨by simpa using hempty, ?_, ?_, ?_⟩
        · simpa using isTrimmed_content comment
        · simpa using hparameter
        · simpa using hdeprecated

/-- A comment that is written with a blank behind its slashes holds the text without the blanks
around. -/
theorem content_slashes (text : List Char) : content ('/' :: '/' :: ' ' :: text) = trim text := by
  obtain ⟨front, back, htext, hfront, hback⟩ := exists_trim text
  have hcore := isTrimmed_trim text
  generalize trim text = core at htext hcore
  subst htext
  have hfront' : ∀ c ∈ ' ' :: front, isBlank c = true := List.forall_mem_cons.2 ⟨rfl, hfront⟩
  have hslashes : IsTrimmed ['/', '/'] :=
    isTrimmed_of_not_blank (List.forall_mem_cons.2 ⟨rfl, List.forall_mem_singleton.2 rfl⟩)
  by_cases hempty : core = []
  · -- All but the slashes is blank
    subst hempty
    have htrim : trim ('/' :: '/' :: ' ' :: (front ++ [] ++ back)) = ['/', '/'] := by
      have hblank : ∀ c ∈ ' ' :: front ++ back, isBlank c = true :=
        List.forall_mem_append.2 ⟨hfront', hback⟩
      simpa using @trim_eq _ [] _ (by simp) hblank hslashes
    rw [content, htrim]
    rfl
  · -- The slashes and the text are kept with the blanks between them, which are then cut off
    have htrim : trim ('/' :: '/' :: ' ' :: (front ++ core ++ back)) =
        ['/', '/'] ++ (' ' :: front ++ core) := by
      have hcomment := hslashes.append hcore (by decide) hempty (' ' :: front)
      simpa using @trim_eq _ [] back (by simp) hback hcomment
    rw [content, htrim, dropLeading?_append]
    simpa using @trim_eq core (' ' :: front) [] hfront' (by simp) hcore

/-- A description that is empty leaves no blank behind the name. -/
theorem exists_content_parameter {name description : List Char} (hempty : name ≠ [])
    (hname : IsTrimmed name) (hdescription : IsTrimmed description) :
    ∃ tail,
      content ('/' :: '/' :: ' ' :: (parameterTag ++ ' ' :: (name ++ ' ' :: description))) =
        parameterTag ++ ' ' :: (name ++ tail) ∧
      firstWord tail = [] ∧ trim tail = description := by
  have htag : IsTrimmed (parameterTag ++ [' '] ++ name) :=
    (isTrimmed_of_not_blank isBlank_of_mem_parameterTag).append hname (by decide) hempty _
  have hblank : ∀ c ∈ [' '], isBlank c = true := List.forall_mem_singleton.2 rfl
  rw [content_slashes]
  by_cases hempty' : description = []
  · subst hempty'
    refine ⟨[], ?_, rfl, rfl⟩
    simpa using @trim_eq _ [] [' '] (by simp) hblank htag
  · refine ⟨' ' :: description, ?_, rfl, ?_⟩
    · have hall := htag.append hdescription (by simp [parameterTag]) hempty' [' ']
      simpa using hall.trim_eq
    · simpa using @trim_eq description [' '] [] hblank (by simp) hdescription

theorem ofComment_chars {line : DocLine} (h : line.IsWritable) : ofComment line.chars = line := by
  cases line with
  | nothing =>
    rw [chars, ofComment_of_other (by decide)]
    rfl
  | deprecated => exact ofComment_of_deprecatedTag_append (List.append_nil _).symm
  | text line =>
    -- The text is neither empty nor starts with a tag, so it is read back as it stands
    obtain ⟨hempty, htrimmed, hparameter, hdeprecated⟩ := h
    have hcontent : content (DocLine.text line).chars = line.toList := by
      rw [chars, content_slashes, htrimmed.trim_eq]
    rw [ofComment_of_other (by rw [hcontent]; exact hparameter), hcontent, hdeprecated,
      if_neg Bool.false_ne_true, if_neg (by simpa using hempty), String.ofList_toList]
  | parameter doc =>
    -- The name is the first word, and the description stands behind the blanks that follow it
    obtain ⟨hempty, hblank, htrimmed⟩ := h
    obtain ⟨tail, hcontent, hstart, htail⟩ :=
      exists_content_parameter hempty (isTrimmed_of_not_blank hblank) htrimmed
    have hname : trimStart (' ' :: (doc.name.toList ++ tail)) = doc.name.toList ++ tail := by
      rw [trimStart, List.dropWhile_cons_of_pos rfl]
      refine dropWhile_eq_self fun c hc => ?_
      rw [List.head?_append, List.head?_eq_some_head hempty] at hc
      exact hblank c (List.mem_of_mem_head? (by rwa [List.head?_eq_some_head hempty]))
    rw [chars, ofComment_of_parameterTag hcontent, hname, ofDescription, firstWord_append hblank,
      behindFirstWord_append hblank, hstart, behindFirstWord_eq_self hstart, htail]
    simp [hempty]

/-- The line as a comment. -/
def toComment (line : DocLine) : CommentLine :=
  ⟨String.ofList line.chars, .empty⟩

/-- The free text of the line. -/
def text? : DocLine → Option String
  | .text line => some line
  | _ => none

/-- The parameter that the line describes. -/
def parameter? : DocLine → Option ParameterDoc
  | .parameter doc => some doc
  | _ => none

/-- How a comment is read. -/
structure Reads (comment : List Char) : Prop where
  /-- Tags are whole words, unless the first word runs on behind one. -/
  wholeWords : ofComment comment = ofFirstWord (content comment) ↔
    ¬RunsOn parameterTag (content comment) ∧ ¬RunsOn deprecatedTag (content comment)
  /-- What runs on behind the tag for parameters is the name of one. -/
  parameter : ∀ c more, firstWord (content comment) = parameterTag ++ c :: more →
    ofComment comment = .parameter ⟨String.ofList (c :: more),
      String.ofList (trim (behindFirstWord (content comment)))⟩
  /-- Whatever runs on behind the other tag is lost. -/
  deprecated : ∀ c more, firstWord (content comment) = deprecatedTag ++ c :: more →
    ofComment comment = .deprecated
  /-- As whole words both would be free text. -/
  text : RunsOn parameterTag (content comment) ∨ RunsOn deprecatedTag (content comment) →
    ofFirstWord (content comment) = .text (String.ofList (content comment))

theorem reads (comment : List Char) : Reads comment where
  wholeWords := ofComment_eq_iff
  parameter := fun _ _ h => ofComment_of_parameterTag_append h
  deprecated := fun _ _ h => ofComment_of_deprecatedTag_append h
  text := by
    rintro (h | h)
    · exact ofFirstWord_of_runsOn h (.inl rfl)
    · exact ofFirstWord_of_runsOn h (.inr rfl)

end DocLine

/-! ### Documentation -/

namespace Doc

open DocLine Text

variable {comments : List CommentLine} {lines : List DocLine}

/-- The documentation that lines make up, each kind of lines in order. -/
def ofLines (lines : List DocLine) : Doc where
  contents := lines.filterMap DocLine.text?
  parameters := lines.filterMap DocLine.parameter?
  isDeprecated := lines.contains .deprecated

/-- The lines of a documentation. -/
def toLines (doc : Doc) : List DocLine :=
  doc.contents.map .text ++ doc.parameters.map .parameter ++
    if doc.isDeprecated then [.deprecated] else []

theorem ofLines_cons (line : DocLine) (lines : List DocLine) :
    ofLines (line :: lines) = add line (ofLines lines) := by
  cases line with
  | nothing => rfl
  | text line => rfl
  | parameter doc => rfl
  | deprecated => rfl

/-- The documentation is read comment by comment. -/
theorem ofComments_eq (comments : List CommentLine) :
    ofComments comments = ofLines (comments.map fun comment => .ofComment comment.text.toList) := by
  induction comments with
  | nil => rfl
  | cons comment rest ih =>
    rw [List.map_cons, ofLines_cons, ← ih, ofComments, List.foldr_cons, ofComments]

theorem ofLines_toLines (doc : Doc) : ofLines doc.toLines = doc := by
  obtain ⟨contents, parameters, isDeprecated⟩ := doc
  have htext : (parameters.map DocLine.parameter).filterMap DocLine.text? = [] := by
    simp [DocLine.text?]
  have hparameter : (contents.map DocLine.text).filterMap DocLine.parameter? = [] := by
    simp [DocLine.parameter?]
  simp only [ofLines, toLines, List.filterMap_append, htext, hparameter]
  cases isDeprecated <;>
    simp [List.filterMap_map, Function.comp_def, DocLine.text?, DocLine.parameter?]

/-- All lines of a documentation that was read can be written. -/
theorem isWritable_of_mem {line : DocLine} (h : ofLines lines = ofComments comments)
    (hline : line ∈ lines) : line.IsWritable := by
  rw [ofComments_eq] at h
  have hcomment : ∀ line ∈ comments.map fun comment => ofComment comment.text.toList,
      line.IsWritable := List.forall_mem_map.2 fun comment _ => isWritable_ofComment _
  cases line with
  | nothing => trivial
  | deprecated => trivial
  | text line =>
    have hmem : line ∈ (ofLines lines).contents := List.mem_filterMap.2 ⟨_, hline, rfl⟩
    -- Only a line of text adds a text
    rw [h] at hmem
    obtain ⟨found, hfound, htext⟩ := List.mem_filterMap.1 hmem
    cases found <;> cases htext
    exact hcomment _ hfound
  | parameter doc =>
    have hmem : doc ∈ (ofLines lines).parameters := List.mem_filterMap.2 ⟨_, hline, rfl⟩
    rw [h] at hmem
    obtain ⟨found, hfound, hparameter⟩ := List.mem_filterMap.1 hmem
    cases found <;> cases hparameter
    exact hcomment _ hfound

/-- Lines that can be written are read as they are. -/
theorem ofComments_map_toComment (h : ∀ line ∈ lines, line.IsWritable) :
    ofComments (lines.map toComment) = ofLines lines := by
  have hlines : (lines.map toComment).map (fun comment => ofComment comment.text.toList) =
      lines := by
    rw [List.map_map]
    refine (List.map_congr_left fun line hline => ?_).trans (List.map_id lines)
    simpa [toComment] using ofComment_chars (h line hline)
  rw [ofComments_eq, hlines]

/-- The documentation of a list of comments is what they say one by one, in order, and each comment
says what its first word says, except that a word that begins with a tag and goes on is taken for
the tag. Where no first word does so, tags are whole words. Written as comments line by line, in
whatever order of text, parameters and tag, the documentation is read again. -/
theorem ofComments_rereads (comments : List CommentLine) :
    ofComments comments =
        ofLines (comments.map fun comment => .ofComment comment.text.toList) ∧
    (∀ comment ∈ comments, DocLine.Reads comment.text.toList) ∧
    ((∀ comment ∈ comments, ¬RunsOn parameterTag (content comment.text.toList) ∧
        ¬RunsOn deprecatedTag (content comment.text.toList)) →
      ofComments comments =
        ofLines (comments.map fun comment => .ofFirstWord (content comment.text.toList))) ∧
    (∀ lines, ofLines lines = ofComments comments →
      ofComments (lines.map toComment) = ofComments comments) ∧
    ofComments ((ofComments comments).toLines.map toComment) = ofComments comments := by
  have hrereads : ∀ lines, ofLines lines = ofComments comments →
      ofComments (lines.map toComment) = ofComments comments := fun lines h =>
    (ofComments_map_toComment fun line hline => isWritable_of_mem h hline).trans h
  refine ⟨ofComments_eq comments, fun comment _ => DocLine.reads _, fun h => ?_, hrereads,
    hrereads _ (ofLines_toLines _)⟩
  rw [ofComments_eq]
  refine congrArg ofLines (List.map_congr_left fun comment hcomment => ?_)
  exact ofComment_eq_iff.2 (h comment hcomment)

/-- Comments of every kind, with whole words for tags. -/
def wholeWordComments : List CommentLine :=
  ["// Adds numbers.", "//  @param a  first operand ", "//", "// @param", "// @deprecated now",
    "// @ param"].map (⟨·, .empty⟩)

theorem ofComments_rereads_wholeWordComments :
    (∀ comment ∈ wholeWordComments, ¬RunsOn parameterTag (content comment.text.toList) ∧
        ¬RunsOn deprecatedTag (content comment.text.toList)) ∧
    ofComments wholeWordComments =
      ⟨["Adds numbers.", "@ param"], [⟨"a", "first operand"⟩], true⟩ := by
  have hwords : ∀ comment ∈ wholeWordComments,
      ¬RunsOn parameterTag (content comment.text.toList) ∧
        ¬RunsOn deprecatedTag (content comment.text.toList) := by
    decide +kernel
  refine ⟨hwords, ((ofComments_rereads wholeWordComments).2.2.1 hwords).trans ?_⟩
  decide +kernel

/-- A comment whose first word is no tag, but begins with one. -/
def pluralComment : CommentLine :=
  ⟨"// @params foo bar", .empty⟩

/-- The rest of the word is taken for the name of a parameter, and the text is lost. -/
theorem parameter_of_pluralComment :
    firstWord (content pluralComment.text.toList) = "@params".toList ∧
    ofFirstWord (content pluralComment.text.toList) = .text "@params foo bar" ∧
    ofComments [pluralComment] = ⟨[], [⟨"s", "foo bar"⟩], false⟩ := by
  decide +kernel

end Doc

end JassOutline
