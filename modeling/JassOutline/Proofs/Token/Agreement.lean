import JassOutline.Proofs.BlockComment.Rereading
import JassOutline.Proofs.Token.Lockstep
import Mathlib.Data.List.Chain

/-!
# Agreement about strings and comments

The tokens of a line and the readings of its bytes agree if both have the same bytes in strings and
the same starts of line comments. What is read in lockstep agrees exactly if no raw code hides an
opener, and then no sign `/` stands directly before a sign `*`.

## Key results

- `Token.Lockstep.agree_iff`: tokens that are read in lockstep agree unless one hides an opener
- `Token.Lockstep.stopColumn_ne_startColumn`: no block comment is taken for signs
-/

namespace JassOutline

open Text BlockComment

namespace Token

/-- What a token says about the byte at a column. Only strings and the starts of comments are
told. -/
def Shows (token : Token) (column : Nat) : Reading → Prop
  | .string =>
    token.kind = .string ∧ token.startColumn ≤ column ∧ column < token.stopColumn
  | .commentStart => token.kind = .comment ∧ column = token.startColumn
  | _ => False

/-- The tokens say of the bytes from a column on which are parts of strings and which start a
comment, as their readings do. -/
def Agree (tokens : List Token) (column : Nat) (readings : List Reading) : Prop :=
  ∀ k reading, readings[k]? = some reading → ∀ shown, shown = .string ∨ shown = .commentStart →
    ((∃ token ∈ tokens, token.Shows (column + k) shown) ↔ reading = shown)

theorem Shows.le {token : Token} {column : Nat} {reading : Reading}
    (h : token.Shows column reading) : token.startColumn ≤ column := by
  cases reading with
  | string => exact h.2.1
  | commentStart => exact h.2.symm.le
  | code | comment | blockComment => exact h.elim

theorem Shows.lt {token : Token} {column : Nat} {reading : Reading}
    (h : token.Shows column reading) (htoken : token.startColumn < token.stopColumn) :
    column < token.stopColumn := by
  cases reading with
  | string => exact h.2.2
  | commentStart => exact h.2 ▸ htoken
  | code | comment | blockComment => exact h.elim

/-- Two stretches of a line can be looked at one after the other. -/
theorem agree_append {tokens : List Token} {column : Nat} {first second : List Reading} :
    Agree tokens column (first ++ second) ↔
      Agree tokens column first ∧ Agree tokens (column + first.length) second := by
  constructor
  · intro h
    constructor
    · intro k reading hreading
      obtain ⟨hk, -⟩ := List.getElem?_eq_some_iff.1 hreading
      exact h k reading (by rwa [List.getElem?_append_left hk])
    · intro k reading hreading
      rw [Nat.add_assoc]
      refine h (first.length + k) reading ?_
      rwa [List.getElem?_append_right (Nat.le_add_right _ _), Nat.add_sub_cancel_left]
  · rintro ⟨hfirst, hsecond⟩ k reading hreading
    by_cases hk : k < first.length
    · exact hfirst k reading (by rwa [List.getElem?_append_left hk] at hreading)
    · obtain ⟨j, rfl⟩ := Nat.exists_eq_add_of_le (Nat.le_of_not_lt hk)
      rw [List.getElem?_append_right (Nat.le_add_right _ _), Nat.add_sub_cancel_left] at hreading
      rw [← Nat.add_assoc]
      exact hsecond j reading hreading

/-- Tokens that start behind a stretch say nothing of it. -/
theorem agree_left {a b : List Token} {column : Nat} {readings : List Reading}
    (hb : ∀ token ∈ b, column + readings.length ≤ token.startColumn) :
    Agree (a ++ b) column readings ↔ Agree a column readings := by
  refine forall₃_congr fun k reading hreading => forall₂_congr fun shown hshown =>
    iff_congr ⟨?_, ?_⟩ Iff.rfl
  · rintro ⟨token, htoken, hshows⟩
    rcases List.mem_append.1 htoken with htoken | htoken
    · exact ⟨token, htoken, hshows⟩
    · obtain ⟨hk, -⟩ := List.getElem?_eq_some_iff.1 hreading
      have hle := hshows.le
      have hge := hb token htoken
      omega
  · rintro ⟨token, htoken, hshows⟩
    exact ⟨token, List.mem_append_left b htoken, hshows⟩

/-- Tokens that stop in front of a stretch say nothing of it. -/
theorem agree_right {a b : List Token} {column : Nat} {readings : List Reading}
    (ha : ∀ token ∈ a, ∀ k shown, token.Shows k shown → k < column) :
    Agree (a ++ b) column readings ↔ Agree b column readings := by
  refine forall₃_congr fun k reading hreading => forall₂_congr fun shown hshown =>
    iff_congr ⟨?_, ?_⟩ Iff.rfl
  · rintro ⟨token, htoken, hshows⟩
    rcases List.mem_append.1 htoken with htoken | htoken
    · have hlt := ha token htoken _ shown hshows
      omega
    · exact ⟨token, htoken, hshows⟩
  · rintro ⟨token, htoken, hshows⟩
    exact ⟨token, List.mem_append_right a htoken, hshows⟩

/-- Where all characters have one reading, all bytes have it. -/
theorem reading_of_getElem? {marks : List (Char × Reading)} {common : Reading}
    (h : ∀ mark ∈ marks, mark.2 = common) {k : Nat} {reading : Reading}
    (hreading : ((bytes marks).map Prod.snd)[k]? = some reading) : reading = common := by
  obtain ⟨byte, hbyte, rfl⟩ := List.mem_map.1 (List.mem_of_getElem? hreading)
  obtain ⟨mark, hmark, hcopy⟩ := List.mem_flatMap.1 hbyte
  exact List.eq_of_mem_replicate hcopy ▸ h mark hmark

/-- Where no token stands, only code is agreed on. -/
theorem agree_nil {marks : List (Char × Reading)} (h : ∀ mark ∈ marks, mark.2 = .code)
    (column : Nat) : Agree [] column ((bytes marks).map Prod.snd) := by
  intro k reading hreading shown hshown
  have hcode := reading_of_getElem? h hreading
  rcases hshown with rfl | rfl <;> simp [hcode]

/-- A token agrees with characters that are read as its kind says. -/
theorem ReadsAs.agree {token : Token} {marks : List (Char × Reading)}
    (h : ReadsAs token.kind marks)
    (hstop : token.startColumn + byteLength (marks.map Prod.fst) ≤ token.stopColumn) :
    Agree [token] token.startColumn ((bytes marks).map Prod.snd) := by
  intro k reading hreading shown hshown
  have hk : k < byteLength (marks.map Prod.fst) := by
    obtain ⟨hk, -⟩ := List.getElem?_eq_some_iff.1 hreading
    rwa [List.length_map, length_bytes] at hk
  have hone : (∃ other ∈ [token], other.Shows (token.startColumn + k) shown) ↔
      token.Shows (token.startColumn + k) shown := by simp
  rw [hone]
  generalize hkind : token.kind = kind at h
  cases h with
  | string h =>
    have hstring : reading = .string := reading_of_getElem? h hreading
    rcases hshown with rfl | rfl
    · simp only [Shows, hkind, hstring, true_and, iff_true]
      omega
    · simp [Shows, hkind, hstring]
  | comment h =>
    -- Only the first byte starts the comment
    have hslash : Char.utf8Size '/' = 1 := rfl
    rw [bytes_cons, hslash] at hreading
    cases k with
    | zero =>
      have hstart : reading = .commentStart := by simpa using hreading.symm
      rcases hshown with rfl | rfl <;> simp [Shows, hkind, hstart]
    | succ k =>
      have hcomment : reading = .comment := reading_of_getElem? h hreading
      rcases hshown with rfl | rfl <;> simp [Shows, hkind, hcomment]
  | other hnoString hnoComment h =>
    have hcode : reading = .code := reading_of_getElem? h hreading
    rcases hshown with rfl | rfl
    · simp [Shows, hkind, hnoString, hcode]
    · simp [Shows, hkind, hnoComment, hcode]

/-! ### Openers of block comments -/

/-- No slash that is read as code stands in front of a star. -/
def SplitsOpeners (marks : List (Char × Reading)) : Prop :=
  marks.IsChain fun first second => ¬(first = ('/', .code) ∧ second.1 = '*')

theorem SplitsOpeners.cons {mark : Char × Reading} {rest : List (Char × Reading)}
    (h : SplitsOpeners rest) (hmark : mark ≠ ('/', .code)) : SplitsOpeners (mark :: rest) :=
  List.isChain_cons.2 ⟨fun _ _ hpair => hmark hpair.1, h⟩

theorem splitsOpeners_readFrom (mode : Mode) (text : List Char) :
    SplitsOpeners (readFrom mode text) := by
  fun_induction readFrom mode text with
  | case1 => exact List.isChain_nil
  | case2 rest ih => exact (ih.cons (by simp)).cons (by simp)
  | case3 rest ih => exact (ih.cons (by simp)).cons (by simp)
  | case4 c rest hblock _ ih =>
    refine List.isChain_cons.2 ⟨?_, ih⟩
    rintro second hsecond ⟨hfirst, hstar⟩
    -- A slash in front of a star opens a comment
    obtain rfl : c = '/' := congrArg Prod.fst hfirst
    have hhead := congrArg List.head? (map_fst_readFrom .code rest)
    rw [List.head?_map, show (readFrom .code rest).head? = some second from hsecond,
      Option.map_some, hstar] at hhead
    obtain ⟨later, hrest⟩ := List.head?_eq_some_iff.1 hhead.symm
    exact hblock later rfl hrest
  | case5 c rest ih => exact ih.cons (by split <;> simp_all)
  | case6 c rest ih => exact ih.cons (by simp)
  | case7 c rest ih => exact ih.cons (by simp)
  | case8 c rest ih => exact ih.cons (by split <;> simp_all)
  | case9 c rest ih => exact ih.cons (by split <;> simp_all)

/-! ### Lines in lockstep -/

/-- No token that starts in front of a column hides an opener. -/
def HideNone (tokens : List Token) (stop : Nat) : Prop :=
  ∀ token ∈ tokens, token.startColumn < stop → token.hidesOpener = false

theorem hideNone_cons {token : Token} {tokens : List Token} {stop : Nat} :
    HideNone (token :: tokens) stop ↔
      (token.startColumn < stop → token.hidesOpener = false) ∧ HideNone tokens stop :=
  List.forall_mem_cons

/-- Of tokens that start behind the column nothing is said. -/
theorem hideNone_of_le {tokens : List Token} {stop : Nat}
    (h : ∀ token ∈ tokens, stop ≤ token.startColumn) : HideNone tokens stop :=
  fun token htoken hlt => absurd hlt (Nat.not_lt.2 (h token htoken))

theorem length_readings (marks : List (Char × Reading)) :
    ((bytes marks).map Prod.snd).length = byteLength (marks.map Prod.fst) := by
  rw [List.length_map, length_bytes]

/-- The sign `/` takes one byte. -/
theorem byteLength_of_isOperator_slash {token : Token} (h : token.isOperator "/" = true) :
    byteLength token.text.toList = 1 := by
  simp only [isOperator, Bool.and_eq_true, beq_iff_eq] at h
  rw [h.2]
  decide

/-- No token is both signs. -/
theorem not_isOperator_star {token : Token} (hslash : token.isOperator "/" = true) :
    ¬token.isOperator "*" = true := by
  intro hstar
  simp only [isOperator, Bool.and_eq_true, beq_iff_eq] at hslash hstar
  exact absurd (hslash.2.symm.trans hstar.2) (by decide)

/-- The sign `/` is read as one slash of code. -/
theorem eq_of_isOperator_slash {token : Token} {marks : List (Char × Reading)}
    (hslash : token.isOperator "/" = true) (hreads : ReadsAs token.kind marks)
    (hfst : marks.map Prod.fst = token.text.toList) : marks = [('/', .code)] := by
  simp only [isOperator, Bool.and_eq_true, beq_iff_eq] at hslash
  have hsign : "/".toList = ['/'] := by decide
  rw [hslash.2, hsign] at hfst
  rw [hslash.1] at hreads
  obtain ⟨⟨c, reading⟩, rfl, rfl⟩ := List.map_eq_singleton_iff.1 hfst
  cases hreads with
  | other _ _ h =>
    have hcode : reading = .code := h _ List.mem_cons_self
    rw [hcode]

namespace Lockstep

variable {column : Nat} {tokens : List Token} {marks : List (Char × Reading)}

theorem le_startColumn (h : Lockstep column tokens marks) :
    ∀ token ∈ tokens, column ≤ token.startColumn := by
  induction h with
  | done hlt => exact fun token htoken => Nat.le_of_lt (hlt token htoken)
  | blank _ ih => exact fun token htoken => Nat.le_of_add_right_le (ih token htoken)
  | token _ _ _ _ hstop _ ih =>
    refine List.forall_mem_cons.2 ⟨Nat.le_refl _, fun token htoken => ?_⟩
    exact Nat.le_of_add_right_le (hstop ▸ ih token htoken)
  | last _ _ _ _ _ hlt =>
    refine List.forall_mem_cons.2 ⟨Nat.le_refl _, fun token htoken => ?_⟩
    exact Nat.le_of_add_right_le (Nat.le_of_lt (hlt token htoken))
  | hidden _ _ hstop hle =>
    refine List.forall_mem_cons.2 ⟨Nat.le_refl _, fun token htoken => ?_⟩
    exact Nat.le_of_add_right_le (hstop ▸ hle token htoken)

/-- A hidden opener is read as a string or a comment, and no token tells so. -/
theorem not_agree_of_hidden {token : Token} {tokens : List Token}
    {marks later : List (Char × Reading)} (hhides : token.hidesOpener = true)
    (hmark : ∃ mark ∈ marks, mark.2 = .string ∨ mark.2 = .commentStart)
    (hstop : token.stopColumn = token.startColumn + byteLength (marks.map Prod.fst))
    (hle : ∀ other ∈ tokens, token.stopColumn ≤ other.startColumn) :
    ¬Agree (token :: tokens) token.startColumn ((bytes (marks ++ later)).map Prod.snd) := by
  intro h
  obtain ⟨mark, hmem, hreading⟩ := hmark
  have hbyte : mark.2 ∈ (bytes marks).map Prod.snd := by
    refine List.mem_map_of_mem (List.mem_flatMap.2 ⟨mark, hmem, ?_⟩)
    exact List.mem_replicate.2 ⟨Nat.ne_of_gt mark.1.utf8Size_pos, rfl⟩
  obtain ⟨k, hk⟩ := List.mem_iff_getElem?.1 hbyte
  obtain ⟨hlt, -⟩ := List.getElem?_eq_some_iff.1 hk
  have hwhole : ((bytes (marks ++ later)).map Prod.snd)[k]? = some mark.2 := by
    rw [bytes_append, List.map_append, List.getElem?_append_left hlt, hk]
  rw [length_readings] at hlt
  obtain ⟨other, hother, hshows⟩ := (h k mark.2 hwhole mark.2 hreading).2 rfl
  rcases List.mem_cons.1 hother with rfl | hother
  · -- A raw code is a number
    have hnumber : other.kind = .number := by
      simp only [hidesOpener, isRawCode, Bool.and_eq_true, beq_iff_eq] at hhides
      exact hhides.1.1
    rcases hreading with hreading | hreading <;> rw [hreading] at hshows <;>
      simp [Shows, hnumber] at hshows
  · have hstart := hle other hother
    have hshown := hshows.le
    omega

theorem not_hideNone_of_hidden {token : Token} {tokens : List Token}
    {marks later : List (Char × Reading)} (hhides : token.hidesOpener = true)
    (hmark : ∃ mark ∈ marks, mark.2 = .string ∨ mark.2 = .commentStart) :
    ¬HideNone (token :: tokens)
      (token.startColumn + byteLength ((marks ++ later).map Prod.fst)) := by
  intro h
  obtain ⟨mark, hmem, -⟩ := hmark
  have hpos : 0 < byteLength ((marks ++ later).map Prod.fst) :=
    byteLength_marks_pos (List.ne_nil_of_mem (List.mem_append_left later hmem))
  have hnot := (hideNone_cons.1 h).1 (Nat.lt_add_of_pos_right hpos)
  exact ne_true_of_eq_false hnot hhides

/-- Tokens that are read in lockstep agree with the readings unless one hides an opener. -/
theorem agree_iff (h : Lockstep column tokens marks) :
    Agree tokens column ((bytes marks).map Prod.snd) ↔
      HideNone tokens (column + byteLength (marks.map Prod.fst)) := by
  induction h with
  | done hlt =>
    exact iff_of_true (by simp [Agree]) (hideNone_of_le fun token htoken =>
      Nat.le_of_lt (hlt token htoken))
  | @blank column tokens c later hlater ih =>
    -- On a blank nothing is told, neither by a token nor by the reading
    have hlength := length_readings [(c, .code)]
    rw [List.map_singleton, byteLength_cons, byteLength_nil, Nat.add_zero] at hlength
    have hfront : Agree tokens column ((bytes [(c, .code)]).map Prod.snd) :=
      (@agree_left [] tokens _ _ (hlength ▸ hlater.le_startColumn)).2 (agree_nil (by simp) column)
    rw [← List.singleton_append, bytes_append, List.map_append, agree_append, hlength,
      and_iff_right hfront, ih, List.map_append, byteLength_append, List.map_singleton,
      byteLength_cons, byteLength_nil, Nat.add_zero, Nat.add_assoc]
  | @token token tokens marks later hhides hreads hne hfst hstop hlater ih =>
    -- The token tells of its own bytes, and the tokens behind it tell of what is behind it
    have hlength := length_readings marks
    have hfront : Agree (token :: tokens) token.startColumn ((bytes marks).map Prod.snd) := by
      refine (@agree_left [token] tokens _ _ ?_).2 (hreads.agree hstop.ge)
      rw [hlength, ← hstop]
      exact hlater.le_startColumn
    have hbehind : Agree (token :: tokens) token.stopColumn ((bytes later).map Prod.snd) ↔
        Agree tokens token.stopColumn ((bytes later).map Prod.snd) := by
      refine @agree_right [token] tokens _ _ (List.forall_mem_singleton.2 fun k shown hshows => ?_)
      have hpos := byteLength_marks_pos hne
      exact hshows.lt (by omega)
    rw [bytes_append, List.map_append, agree_append, and_iff_right hfront, hlength, ← hstop,
      hbehind, ih, List.map_append, byteLength_append, ← Nat.add_assoc, ← hstop, hideNone_cons,
      and_iff_right fun _ => hhides]
  | @last token tokens marks hhides hreads hne hfst hstop hlt =>
    -- The tokens behind the stretch tell nothing of it, whatever they are
    have hle : ∀ other ∈ tokens,
        token.startColumn + byteLength (marks.map Prod.fst) ≤ other.startColumn :=
      fun other hother => Nat.le_of_lt (hlt other hother)
    obtain ⟨more, hmore⟩ := hfst
    have hreach : token.startColumn + byteLength (marks.map Prod.fst) ≤ token.stopColumn := by
      rw [hstop, ← hmore, byteLength_append]
      omega
    refine iff_of_true ?_ (hideNone_cons.2 ⟨fun _ => hhides, hideNone_of_le hle⟩)
    exact (@agree_left [token] tokens _ _ (length_readings marks ▸ hle)).2 (hreads.agree hreach)
  | hidden hhides hmark hstop hle =>
    exact iff_of_false (not_agree_of_hidden hhides hmark hstop hle)
      (not_hideNone_of_hidden hhides hmark)

/-! ### Adjacent signs -/

/-- The token that starts where the rest of the line does is spelled there. -/
theorem head?_of_startColumn (h : Lockstep column tokens marks)
    (hclean : HideNone tokens (column + byteLength (marks.map Prod.fst))) {token : Token}
    (htoken : token ∈ tokens) (hstart : token.startColumn = column) :
    (marks.map Prod.fst).head? = token.text.toList.head? := by
  cases h with
  | done hlt => exact absurd hstart (Nat.ne_of_gt (hlt token htoken))
  | @blank _ _ c _ hlater =>
    have hle := hlater.le_startColumn token htoken
    have hpos := c.utf8Size_pos
    omega
  | token _ _ hne hfst hstop hlater =>
    rcases List.mem_cons.1 htoken with rfl | htoken
    · rw [List.map_append, ← hfst, List.head?_append_of_ne_nil _ (by simpa using hne)]
    · have hle := hlater.le_startColumn token htoken
      have hpos := byteLength_marks_pos hne
      omega
  | last _ _ hne hfst _ hlt =>
    rcases List.mem_cons.1 htoken with rfl | htoken
    · obtain ⟨more, hmore⟩ := hfst
      rw [← hmore, List.head?_append_of_ne_nil _ (by simpa using hne)]
    · -- Behind the stretch a token starts too late
      have hbehind := hlt token htoken
      omega
  | hidden hhides hmark => exact absurd hclean (not_hideNone_of_hidden hhides hmark)

/-- Directly behind a slash of code no sign `*` starts: the two would open a comment. -/
theorem startColumn_ne_behind_slash (h : Lockstep column tokens marks)
    (hclean : HideNone tokens (column + byteLength (marks.map Prod.fst)))
    (hmarks : SplitsOpeners (('/', .code) :: marks)) {star : Token} (hstar : star ∈ tokens)
    (hisStar : star.isOperator "*" = true) : star.startColumn ≠ column := by
  intro hstart
  have hhead := h.head?_of_startColumn hclean hstar hstart
  have hsign : star.text.toList = ['*'] := by
    simp only [isOperator, Bool.and_eq_true, beq_iff_eq] at hisStar
    rw [hisStar.2]
    decide
  rw [hsign, List.head?_map, List.head?_cons, Option.map_eq_some_iff] at hhead
  obtain ⟨second, hsecond, hchar⟩ := hhead
  exact (List.isChain_cons.1 hmarks).1 second hsecond ⟨rfl, hchar⟩

/-- No sign `/` stands directly before a sign `*`. -/
theorem stopColumn_ne_startColumn (h : Lockstep column tokens marks)
    (hclean : HideNone tokens (column + byteLength (marks.map Prod.fst)))
    (horder : ∀ token ∈ tokens, token.startColumn < token.stopColumn)
    (hmarks : SplitsOpeners marks) :
    ∀ slash ∈ tokens, slash.startColumn < column + byteLength (marks.map Prod.fst) →
      ∀ star ∈ tokens, slash.isOperator "/" = true → star.isOperator "*" = true →
        slash.stopColumn ≠ star.startColumn := by
  induction h with
  | done hlt =>
    -- No token starts inside of an empty stretch
    intro slash hslash hinside
    exact absurd hinside (Nat.not_lt.2 (Nat.le_of_lt (hlt slash hslash)))
  | blank _ ih =>
    -- A blank is no token, and what is said of the rest holds of the whole
    rw [List.map_cons, byteLength_cons, ← Nat.add_assoc] at hclean ⊢
    exact ih hclean horder (List.isChain_cons.1 hmarks).2
  | @token token tokens marks later hhides hreads hne hfst hstop hlater ih =>
    rw [List.map_append, byteLength_append, ← Nat.add_assoc, ← hstop] at hclean ⊢
    obtain ⟨-, hrest⟩ := hideNone_cons.1 hclean
    obtain ⟨hfirst, hothers⟩ := List.forall_mem_cons.1 horder
    intro slash hmemSlash hinside star hmemStar hisSlash hisStar heq
    -- The slash is the token itself or a later one, and so is the star
    rcases List.mem_cons.1 hmemSlash with rfl | hslash
    · rcases List.mem_cons.1 hmemStar with rfl | hstar
      · exact not_isOperator_star hisSlash hisStar
      · rw [eq_of_isOperator_slash hisSlash hreads hfst] at hmarks
        exact hlater.startColumn_ne_behind_slash hrest hmarks hstar hisStar heq.symm
    · rcases List.mem_cons.1 hmemStar with rfl | hstar
      · -- The star stands in front of the slash
        have hle := hlater.le_startColumn slash hslash
        have hlt := hothers slash hslash
        omega
      · exact ih hrest hothers hmarks.right_of_append slash hslash hinside star hstar hisSlash
          hisStar heq
  | @last token tokens marks hhides hreads hne hfst hstop hlt =>
    intro slash hmemSlash hinside star hmemStar hisSlash hisStar heq
    rcases List.mem_cons.1 hmemSlash with rfl | hslash
    · rcases List.mem_cons.1 hmemStar with rfl | hstar
      · exact not_isOperator_star hisSlash hisStar
      · -- The slash ends the stretch, and no token starts directly behind that
        have hbehind := hlt star hstar
        have hpos := byteLength_marks_pos hne
        rw [byteLength_of_isOperator_slash hisSlash] at hstop
        omega
    · have hbehind := hlt slash hslash
      -- A later slash would start behind the stretch
      omega
  | hidden hhides hmark => exact absurd hclean (not_hideNone_of_hidden hhides hmark)

end Lockstep

end Token

end JassOutline
