import JassOutline.Proofs.Token.Extent

/-!
# Two readers in lockstep

The reader of tokens and the reader that blanks comments go through a line side by side, one token
at a time. `Lockstep` relates the tokens of a line to the readings of its characters as long as the
two agree. They part at the first raw code that hides an opener, and at the first carriage return in
the middle of a string or a comment.

## Key results

- `lockstep_tokenizeFrom`: the tokens of a line and the readings of its characters, up to the first
  stray carriage return
-/

namespace JassOutline

namespace BlockComment

/-- Whether it is a carriage return that is part of a string or a comment. For the reader of tokens
it ends both. -/
def isStrayReturn (mark : Char × Reading) : Bool :=
  mark.1 == '\r' && (mark.2 == .string || mark.2 == .comment)

end BlockComment

namespace Token

open Text BlockComment

/-- Whether the token is a raw code, which is written in apostrophes. -/
def isRawCode (token : Token) : Bool :=
  token.kind == .number && token.text.toList.head? == some '\''

/-- Whether the token is a raw code that holds what opens a string or a comment elsewhere. -/
def hidesOpener (token : Token) : Bool :=
  token.isRawCode && holdsOpener token.text.toList

/-- The tokens from a column on, and a stretch of the line from there on with its readings. -/
inductive Lockstep : Nat → List Token → List (Char × Reading) → Prop
  | done {column : Nat} {tokens : List Token} :
    (∀ other ∈ tokens, column < other.startColumn) → Lockstep column tokens []
  | blank {column : Nat} {tokens : List Token} {c : Char} {later : List (Char × Reading)} :
    Lockstep (column + c.utf8Size) tokens later → Lockstep column tokens ((c, .code) :: later)
  | token {token : Token} {tokens : List Token} {marks later : List (Char × Reading)} :
    token.hidesOpener = false → ReadsAs token.kind marks → marks ≠ [] →
    marks.map Prod.fst = token.text.toList →
    token.stopColumn = token.startColumn + byteLength (marks.map Prod.fst) →
    Lockstep token.stopColumn tokens later →
    Lockstep token.startColumn (token :: tokens) (marks ++ later)
  /-- The last token may reach beyond the stretch. -/
  | last {token : Token} {tokens : List Token} {marks : List (Char × Reading)} :
    token.hidesOpener = false → ReadsAs token.kind marks → marks ≠ [] →
    marks.map Prod.fst <+: token.text.toList →
    token.stopColumn = token.startColumn + byteLength token.text.toList →
    (∀ other ∈ tokens, token.startColumn + byteLength (marks.map Prod.fst) < other.startColumn) →
    Lockstep token.startColumn (token :: tokens) marks
  /-- Behind a hidden opener nothing is said. -/
  | hidden {token : Token} {tokens : List Token} {marks later : List (Char × Reading)} :
    token.hidesOpener = true → (∃ mark ∈ marks, mark.2 = .string ∨ mark.2 = .commentStart) →
    token.stopColumn = token.startColumn + byteLength (marks.map Prod.fst) →
    (∀ other ∈ tokens, token.stopColumn ≤ other.startColumn) →
    Lockstep token.startColumn (token :: tokens) (marks ++ later)

theorem byteLength_pos {text : List Char} (h : text ≠ []) : 0 < byteLength text := by
  obtain ⟨c, rest, rfl⟩ := List.exists_cons_of_ne_nil h
  exact Nat.add_pos_left c.utf8Size_pos _

theorem byteLength_marks_pos {marks : List (Char × Reading)} (h : marks ≠ []) :
    0 < byteLength (marks.map Prod.fst) :=
  byteLength_pos (List.map_eq_nil_iff.not.2 h)

/-! ### The reader of tokens -/

theorem le_startColumn (line column : Nat) (text : List Char) :
    ∀ token ∈ tokenizeFrom line column text, column ≤ token.startColumn := by
  fun_induction tokenizeFrom line column text with
  | case1 => simp
  | case2 column c rest hblank ih =>
    exact fun token htoken => Nat.le_of_add_right_le (ih token htoken)
  | case3 column c rest hblank kind size hextent word stop ih =>
    refine List.forall_mem_cons.2 ⟨Nat.le_refl _, fun token htoken => ?_⟩
    exact Nat.le_of_add_right_le (ih token htoken)

/-- Tokens are not empty. -/
theorem startColumn_lt_stopColumn (line column : Nat) (text : List Char) :
    ∀ token ∈ tokenizeFrom line column text, token.startColumn < token.stopColumn := by
  fun_induction tokenizeFrom line column text with
  | case1 => simp
  | case2 column c rest hblank ih => exact ih
  | case3 column c rest hblank kind size hextent word stop ih =>
    exact List.forall_mem_cons.2 ⟨Nat.lt_add_of_pos_right (byteLength_pos (by simp [word])), ih⟩

/-- At a line break no token starts. -/
theorem lt_startColumn_of_isLineBreak (line column : Nat) {text : List Char}
    (h : ∀ c ∈ text.head?, isLineBreak c = true) :
    ∀ token ∈ tokenizeFrom line column text, column < token.startColumn := by
  cases text with
  | nil => simp
  | cons c rest =>
    rw [tokenizeFrom_blank (isBlank_of_isLineBreak (h c rfl))]
    intro token htoken
    have hle := le_startColumn line _ rest token htoken
    have hpos := c.utf8Size_pos
    omega

/-! ### One line -/

/-- A stretch of a line of the blanked text, which ends at a line break or at the end of the text:
no block comment opens in the line, and the stretch has no stray carriage return. -/
structure IsLine (content ending : List Char) : Prop where
  isBreak : ∀ c ∈ ending.head?, isLineBreak c = true
  oneLine : '\n' ∉ content
  noBlock : ∀ mark ∈ readFrom .code (content ++ ending), mark.2 ≠ .blockComment
  noReturn : ∀ mark ∈ (readFrom .code (content ++ ending)).take content.length,
    isStrayReturn mark = false

theorem IsLine.behind {front content ending : List Char} {marks : List (Char × Reading)}
    (h : IsLine (front ++ content) ending) (hlength : marks.length = front.length)
    (hread : readFrom .code (front ++ content ++ ending) =
      marks ++ readFrom .code (content ++ ending)) :
    IsLine content ending := by
  have hblock := h.noBlock
  have hreturn := h.noReturn
  rw [hread] at hblock hreturn
  refine ⟨h.isBreak, fun hmem => h.oneLine (List.mem_append_right _ hmem),
    fun mark hmark => hblock mark (List.mem_append_right _ hmark),
    fun mark hmark => hreturn mark ?_⟩
  rw [List.length_append, ← hlength, List.take_length_add_append]
  exact List.mem_append_right _ hmark

/-- Where a string or a comment has stopped, nothing is left of the stretch. -/
theorem IsLine.eq_nil_of_stopped {front content ending : List Char}
    {marks later : List (Char × Reading)} (h : IsLine (front ++ content) ending)
    (hlength : marks.length = front.length)
    (hread : readFrom .code (front ++ content ++ ending) = marks ++ later)
    (hlater : Stopped later) : content = [] := by
  have hfst : marks.map Prod.fst ++ later.map Prod.fst = front ++ (content ++ ending) := by
    rw [← List.map_append, ← hread, map_fst_readFrom, List.append_assoc]
  have hrest : later.map Prod.fst = content ++ ending :=
    (List.append_inj hfst (by rw [List.length_map, hlength])).2
  cases content with
  | nil => rfl
  | cons d content =>
    -- A further character of the line would be a line feed, or a stray carriage return
    obtain ⟨mark, rest, rfl, hd, -⟩ := List.map_eq_cons_iff.1 hrest
    rcases hlater mark rfl with hline | ⟨hreturn, hreading⟩
    · exact absurd (List.mem_append_right _ (by simp [← hd, hline])) h.oneLine
    · have hmem : mark ∈ (marks ++ mark :: rest).take (front ++ d :: content).length := by
        rw [List.length_append, ← hlength, List.take_length_add_append, List.length_cons,
          List.take_succ_cons]
        simp
      have hnot := h.noReturn mark (hread ▸ hmem)
      rcases hreading with hreading | hreading <;> simp [isStrayReturn, hreturn, hreading] at hnot

theorem ReadsAs.take {kind : TokenKind} {marks : List (Char × Reading)} (h : ReadsAs kind marks)
    (n : Nat) : ReadsAs kind (marks.take (n + 1)) := by
  cases h with
  | string h => exact .string fun mark hmark => h mark (List.mem_of_mem_take hmark)
  | comment h => exact .comment fun mark hmark => h mark (List.mem_of_mem_take hmark)
  | other hstring hcomment h =>
    exact .other hstring hcomment fun mark hmark => h mark (List.mem_of_mem_take hmark)

/-- A text without line breaks does not reach beyond one. -/
theorem length_le_of_prefix {word content ending : List Char} (h : word <+: content ++ ending)
    (hword : ∀ c ∈ word, isLineBreak c = false)
    (hending : ∀ c ∈ ending.head?, isLineBreak c = true) :
    word.length ≤ content.length := by
  by_contra hlong
  rw [Nat.not_le] at hlong
  obtain ⟨more, rfl⟩ := List.prefix_of_prefix_length_le (List.prefix_append content ending) h
    (Nat.le_of_lt hlong)
  rw [List.prefix_append_right_inj] at h
  cases more with
  | nil => simp at hlong
  | cons c more =>
    have hc := hword c (by simp)
    obtain ⟨rest, rfl⟩ := h
    rw [hending c rfl] at hc
    cases hc

/-- An opener in a raw code is read as one. -/
theorem exists_mark_of_holdsOpener {rest : List Char}
    (hopener : holdsOpener (rest.take (rawCodeExtent rest)) = true)
    (h : ∀ mark ∈ readFrom .code ('\'' :: rest), mark.2 ≠ .blockComment) :
    ∃ mark ∈ (readFrom .code ('\'' :: rest)).take (rawCodeExtent rest + 1),
      mark.2 = .string ∨ mark.2 = .commentStart := by
  by_contra hnone
  have hopeners : holdsOpener (('\'' :: rest).take (rawCodeExtent rest + 1)) = false := by
    apply holdsOpener_take_eq_false
    intro mark hmark
    have hnot := not_or.1 fun hreading => hnone ⟨mark, hmark, hreading⟩
    exact ⟨hnot.1, hnot.2, h mark (List.mem_of_mem_take hmark)⟩
  rw [List.take_succ_cons, holdsOpener_cons_eq_false] at hopeners
  rw [hopener] at hopeners
  simp at hopeners

/-- The two readers are in lockstep on a stretch of a line. -/
def InStep (line column : Nat) (content ending : List Char) : Prop :=
  Lockstep column (tokenizeFrom line column (content ++ ending))
    ((readFrom .code (content ++ ending)).take content.length)

section

variable {line column : Nat} {c : Char} {rest ending : List Char}

theorem inStep_nil (h : IsLine [] ending) : InStep line column [] ending :=
  .done (lt_startColumn_of_isLineBreak line column h.isBreak)

/-- A blank separates tokens and is read as code. -/
theorem inStep_blank (hblank : isBlank c = true) (h : IsLine (c :: rest) ending)
    (ih : IsLine rest ending → InStep line (column + c.utf8Size) rest ending) :
    InStep line column (c :: rest) ending := by
  have hslash : c ≠ '/' := by
    rintro rfl
    exact absurd hblank (by decide)
  have hquote : c ≠ '"' := by
    rintro rfl
    exact absurd hblank (by decide)
  have hread : readFrom .code (c :: rest ++ ending) =
      [(c, Reading.code)] ++ readFrom .code (rest ++ ending) := by
    have hopens : opensComment (c :: (rest ++ ending)) = false :=
      opensComment_cons_eq_false.2 fun heq => absurd heq hslash
    rw [List.cons_append, readFrom_code hopens, if_neg hquote, if_neg hquote]
    rfl
  have hrest : IsLine rest ending := @IsLine.behind [c] rest ending _ h rfl hread
  rw [InStep, hread, List.cons_append, tokenizeFrom_blank hblank]
  exact .blank (ih hrest)

theorem hidesOpener_eq_false {tail : List Char} (h : c = '\'' → holdsOpener tail = false)
    (kind : TokenKind) (stop : Nat) :
    hidesOpener ⟨kind, String.ofList (c :: tail), line, column, stop⟩ = false := by
  unfold hidesOpener isRawCode
  by_cases hc : c = '\''
  · simp [hc, holdsOpener, h hc]
  · simp [hc]

/-- A token that hides an opener ends the lockstep. -/
theorem inStep_hidden (h : IsLine ('\'' :: rest) ending)
    (hopener : holdsOpener ((rest ++ ending).take (rawCodeExtent (rest ++ ending))) = true) :
    InStep line column ('\'' :: rest) ending := by
  have hlength := rawCodeExtent_le_length (rest ++ ending)
  have hmark := exists_mark_of_holdsOpener hopener h.noBlock
  -- The raw code lies within the line
  have hle : rawCodeExtent (rest ++ ending) ≤ rest.length := by
    have hprefix := length_le_of_prefix (List.take_prefix _ _)
      (rawCodeExtent_cases (rest ++ ending)).2 h.isBreak
    rwa [List.length_take_of_le hlength] at hprefix
  rw [InStep, List.cons_append, tokenizeFrom_cons (by decide), extent_apostrophe, List.length_cons]
  generalize rawCodeExtent (rest ++ ending) = n at *
  have hsplit := (List.take_append_drop (n + 1)
    ((readFrom .code ('\'' :: (rest ++ ending))).take (rest.length + 1))).symm
  rw [List.take_take, Nat.min_eq_left (by omega)] at hsplit
  rw [hsplit]
  have hhides : hidesOpener ⟨.number, String.ofList ('\'' :: (rest ++ ending).take n), line, column,
      column + byteLength ('\'' :: (rest ++ ending).take n)⟩ = true := by
    simpa [hidesOpener, isRawCode, holdsOpener] using hopener
  refine .hidden hhides hmark ?_ ?_
  · rw [List.map_take, map_fst_readFrom, List.take_succ_cons]
  · exact le_startColumn line _ _

/-- A token that reaches beyond the stretch is the last one. -/
theorem inStep_last (hblank : isBlank c = false) (h : IsLine (c :: rest) ending)
    (hraw : c = '\'' → holdsOpener ((rest ++ ending).take (extent c (rest ++ ending)).2) = false)
    (hlong : rest.length < (extent c (rest ++ ending)).2) :
    InStep line column (c :: rest) ending := by
  obtain ⟨marks, later, hread, hfst, hreads, -⟩ := readsFirst hraw h.noBlock
  -- Only as many marks of the token count as lie within the stretch
  have hlength := congrArg List.length hfst
  rw [List.length_map, List.length_cons, List.length_take, List.length_append] at hlength
  rw [InStep, List.cons_append, hread, List.length_cons,
    List.take_append_of_le_length (by omega), tokenizeFrom_cons hblank, ← hfst]
  refine .last (hfst ▸ hidesOpener_eq_false hraw _ _) (hreads.take _) ?_ ?_ ?_ ?_
  · exact List.ne_nil_of_length_pos (by rw [List.length_take]; omega)
  · rw [String.toList_ofList]
    exact (List.take_prefix _ marks).map Prod.fst
  · rw [String.toList_ofList]
  · -- Only a token that takes characters behind the stretch with it is followed by others
    intro other hother
    have hle := le_startColumn line _ _ other hother
    have hmore : (extent c (rest ++ ending)).2 < (rest ++ ending).length := by
      by_contra hall
      rw [List.drop_eq_nil_of_le (Nat.le_of_not_lt hall), tokenizeFrom_nil] at hother
      cases hother
    have hbehind : marks.drop (rest.length + 1) ≠ [] := by
      refine List.ne_nil_of_length_pos ?_
      rw [List.length_append] at hmore
      rw [List.length_drop]
      omega
    have hpos := byteLength_marks_pos hbehind
    rw [← List.take_append_drop (rest.length + 1) marks, List.map_append, byteLength_append] at hle
    show column + byteLength ((marks.take (rest.length + 1)).map Prod.fst) < other.startColumn
    omega

/-- Any other token is followed by what is left behind it. -/
theorem inStep_token (hblank : isBlank c = false) (h : IsLine (c :: rest) ending)
    (hraw : c = '\'' → holdsOpener ((rest ++ ending).take (extent c (rest ++ ending)).2) = false)
    (hfits : (extent c (rest ++ ending)).2 ≤ rest.length)
    (ih : ∀ column, IsLine (rest.drop (extent c (rest ++ ending)).2) ending →
      InStep line column (rest.drop (extent c (rest ++ ending)).2) ending) :
    InStep line column (c :: rest) ending := by
  obtain ⟨marks, later, hread, hfst, hreads, hlater⟩ := readsFirst hraw h.noBlock
  have hhides : ∀ kind stop, hidesOpener ⟨kind, String.ofList (c :: (rest ++ ending).take
      (extent c (rest ++ ending)).2), line, column, stop⟩ = false := hidesOpener_eq_false hraw
  rw [InStep, List.cons_append, hread, tokenizeFrom_cons hblank]
  generalize (extent c (rest ++ ending)).1 = kind at *
  generalize (extent c (rest ++ ending)).2 = n at *
  rw [List.take_append_of_le_length hfits] at hfst hhides ⊢
  rw [List.drop_append_of_le_length hfits] at hlater ⊢
  -- The line is the token and what is left behind it
  have hlength : marks.length = (c :: rest.take n).length := by rw [← hfst, List.length_map]
  have hcontent : (c :: rest.take n) ++ rest.drop n = c :: rest := by
    rw [List.cons_append, List.take_append_drop]
  have htake : (c :: rest).length = marks.length + (rest.drop n).length := by
    rw [← hcontent, List.length_append, hlength]
  have hline : IsLine ((c :: rest.take n) ++ rest.drop n) ending := hcontent.symm ▸ h
  have hmarks : readFrom .code ((c :: rest.take n) ++ rest.drop n ++ ending) = marks ++ later := by
    rw [hcontent]
    exact hread
  rw [htake, List.take_length_add_append]
  refine .token (hhides _ _) hreads ?_ ?_ ?_ ?_
  · exact List.ne_nil_of_length_pos (by rw [hlength, List.length_cons]; omega)
  · rw [String.toList_ofList, hfst]
  · rw [hfst]
  · rcases hlater with rfl | hstopped
    · exact ih _ (hline.behind hlength hmarks)
    · have hnil := hline.eq_nil_of_stopped hlength hmarks hstopped
      rw [hnil]
      exact .done (lt_startColumn_of_isLineBreak line _ h.isBreak)

end

/-- The tokens of a line, and the readings of the characters up to where the lockstep may end. -/
theorem lockstep_tokenizeFrom (line : Nat) {content ending : List Char} (h : IsLine content ending)
    (column : Nat) : InStep line column content ending := by
  -- Each token is taken off the front of the line
  induction hlength : content.length using Nat.strong_induction_on generalizing content column with
  | _ n ih =>
    subst hlength
    cases content with
    | nil => exact inStep_nil h
    | cons c rest =>
      by_cases hblank : isBlank c = true
      · exact inStep_blank hblank h fun hrest => ih rest.length (by simp) hrest _ rfl
      rw [Bool.not_eq_true] at hblank
      by_cases hhidden : c = '\'' ∧
          holdsOpener ((rest ++ ending).take (rawCodeExtent (rest ++ ending))) = true
      · obtain ⟨rfl, hopener⟩ := hhidden
        exact inStep_hidden h hopener
      have hraw : c = '\'' →
          holdsOpener ((rest ++ ending).take (extent c (rest ++ ending)).2) = false := by
        rintro rfl
        rw [extent_apostrophe, ← Bool.not_eq_true]
        exact fun hopener => hhidden ⟨rfl, hopener⟩
      by_cases hfits : (extent c (rest ++ ending)).2 ≤ rest.length
      · refine inStep_token hblank h hraw hfits fun column hrest => ih _ ?_ hrest column rfl
        rw [List.length_drop, List.length_cons]
        omega
      · exact inStep_last hblank h hraw (Nat.lt_of_not_le hfits)

end Token

end JassOutline
